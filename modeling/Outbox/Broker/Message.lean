import Outbox.Entry.Basic

/-!
# Messages and their delivery

A message carries the texts of an entry to the broker. A failed delivery is worth another attempt
or it is not.
-/

namespace Outbox

/-- A message for the broker. -/
structure Message where
  entryId : Uuid
  topic : String
  /-- Messages with one key stay in order; the id of the aggregate. -/
  key : String
  eventType : String
  payload : String
  deriving DecidableEq

def Message.ofEntry (e : Entry) : Message :=
  { entryId := e.id
    topic := e.topic
    key := e.aggregateId
    eventType := e.eventType
    payload := e.payload }

/-- Why a message was not delivered. -/
inductive DeliveryError
  | retryable (reason : String)
  /-- The broker rejected the message itself. -/
  | permanent (reason : String)
  deriving DecidableEq, Repr

namespace DeliveryError

/-- The reason alone. -/
def reason : DeliveryError → String
  | retryable r => r
  | permanent r => r

def message : DeliveryError → String
  | retryable r => "retryable delivery failure: " ++ r
  | permanent r => "permanent delivery failure: " ++ r

end DeliveryError

abbrev Delivery := Except DeliveryError Unit

end Outbox
