import Outbox.Broker.Status
import Outbox.Text.Percent
import Outbox.Url.Reader

/-!
# Delivery over the web

Every topic has an address below that of the broker, and a message is posted to it with its key, its
id and the type of its event in headers. What cannot be asked for is a permanent failure, a request
that is not answered a transient one.
-/

namespace Outbox.Broker

/-- A request to the broker. -/
structure PostRequest where
  url : Url
  /-- Names with values. -/
  headers : List (String × String)
  body : String
  deriving DecidableEq, Repr

/-- How a request ended. -/
inductive Exchange
  /-- The broker answered; there is no body if reading it failed. -/
  | answered (status : StatusCode) (body : Option String)
  | notAnswered

/-- The text without slashes at its end. -/
def trimSlashes (s : String) : String :=
  String.ofList (s.toList.reverse.dropWhile (· = '/')).reverse

/-- A topic as one segment of a path. -/
def topicSegment (topic : String) : String :=
  String.ofList (Text.percentEncode Text.isUnreserved topic.toList)

/-- The text of the address of a topic. -/
def topicText (base : Url) (topic : String) : String :=
  trimSlashes base.text ++ "/topics/" ++ topicSegment topic

def topicUrl (base : Url) (topic : String) : Except DeliveryError Url :=
  (Url.parse (topicText base topic)).mapError fun e =>
    .permanent ("invalid topic url " ++ topicText base topic ++ ": " ++ e.message)

/-- A character that a header can hold. -/
def isHeaderChar (c : Char) : Bool := c = '\t' || (0x20 ≤ c.toNat && c.toNat ≠ 0x7F)

/-- A request that cannot be made for this address. -/
def refused (url : Url) : DeliveryError := .permanent ("builder error for url (" ++ url.text ++ ")")

/-- The request for a message. The name and the password of the address are not part of it. -/
def request (base : Url) (m : Message) : Except DeliveryError PostRequest := do
  let url ← topicUrl base m.topic
  if ¬url.hasHost then throw (refused url)
  let headers := [("content-type", "application/json"), ("mopl-message-key", m.key),
    ("mopl-event-id", m.entryId.text), ("mopl-event-type", m.eventType)]
  if headers.any fun h => !h.2.toList.all isHeaderChar then throw (.permanent "builder error")
  if ¬url.isWeb then throw (refused url.anonymous)
  return { url := url.anonymous, headers, body := m.payload }

/-- What the end of a request means for the delivery. -/
def conclude (r : PostRequest) : Exchange → Delivery
  | .answered status body => classify status (body.getD "")
  | .notAnswered => .error (.retryable ("error sending request for url (" ++ r.url.text ++ ")"))

/-- Delivers a message by the exchange that its request leads to. -/
def deliver (base : Url) (exchange : PostRequest → Exchange) (m : Message) : Delivery := do
  let r ← request base m
  conclude r (exchange r)

end Outbox.Broker
