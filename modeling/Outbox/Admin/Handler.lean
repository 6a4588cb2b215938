import Outbox.Admin.Request
import Outbox.Admin.View
import Outbox.Process

/-!
# Answering administrators

Everything that can be refused without the store is refused first: an unknown place, a method it
does not answer to, a missing or wrong secret, an unreadable id or query, in this order. Only then
the store is asked.
-/

namespace Outbox.Admin

/-- The version that a healthy service reports. -/
def version : String := "0.1.0"

/-- How far the answer to a request has come. -/
inductive Handler
  | respond (r : Response)
  | list (f : Filter)
  | count
  | get (id : Uuid)
  /-- Looks at an entry before it is put back. -/
  | inspect (id : Uuid)
  | replay (id : Uuid)
  /-- Looks again at an entry that could not be put back. -/
  | reinspect (id : Uuid)
  deriving DecidableEq

namespace Handler

/-- Ends with a status and a text. -/
def refuse (status : Nat) (body : String) : Handler := respond ⟨status, body⟩

def answer (j : Json) : Handler := respond ⟨200, j.render⟩

/-- The end after an error of the store, which is not told. -/
def storeFailed : Handler := refuse 500 "internal server error"

/-- The end where there is no such entry. -/
def notFound : Handler := refuse 404 "resource not found"

/-- The end where an entry cannot be put back. -/
def notReplayable (s : Status) : Handler :=
  refuse 409 s!"entry is {s.title}; only failed entries can be replayed"

/-- The end with an entry. -/
def showEntry (e : Entry) : Handler := answer (EntryView.ofEntry e).toJson

/-- What the handler asks for next. -/
def ask : Handler → Ask Handler Response
  | respond r => .done r
  | list f => .call (.list f) fun
    | .ok es => answer (.list (es.map fun e => (EntryView.ofEntry e).toJson))
    | .error _ => storeFailed
  | count => .call .count fun
    | .ok s => answer (StatsView.ofStats s).toJson
    | .error _ => storeFailed
  | get id => .call (.get id) fun
    | .ok (some e) => showEntry e
    | .ok none => notFound
    | .error _ => storeFailed
  | inspect id => .call (.get id) fun
    | .ok (some e) => if e.status = .failed then replay id else notReplayable e.status
    | .ok none => notFound
    | .error _ => storeFailed
  | replay id => .call (.replayFailed id) fun
    | .ok (some e) => showEntry e
    | .ok none => reinspect id
    | .error _ => storeFailed
  | reinspect id => .call (.get id) fun
    | .ok (some e) => notReplayable e.status
    | .ok none => notFound
    | .error _ => storeFailed

/-- How many calls are still to come, at most. -/
def rank : Handler → Nat
  | respond _ => 0
  | inspect _ => 3
  | replay _ => 2
  | _ => 1

/-- Every answer of the store brings the response closer. -/
theorem rank_lt_of_ask_call {h : Handler} {c : Call} {k : c.Answer → Handler}
    (hc : h.ask = .call c k) (a : c.Answer) : (k a).rank < h.rank := by
  cases h with
  | respond => cases hc
  | list => cases hc; cases a <;> exact Nat.one_pos
  | count => cases hc; cases a <;> exact Nat.one_pos
  | get => cases hc; rcases a with _ | (_ | _) <;> exact Nat.one_pos
  | inspect id =>
    cases hc
    rcases a with _ | (_ | e)
    · exact Nat.succ_pos 2
    · exact Nat.succ_pos 2
    · show (if e.status = .failed then replay id else notReplayable e.status).rank < 3
      split
      · exact Nat.lt_succ_self 2
      · exact Nat.succ_pos 2
  | replay =>
    cases hc
    rcases a with _ | (_ | _) <;> simp [storeFailed, showEntry, answer, refuse, rank]
  | reinspect => cases hc; rcases a with _ | (_ | _) <;> exact Nat.one_pos

theorem ask_ne_send {h : Handler} {m : Message} {k : Option Delivery → Handler} :
    h.ask ≠ .send m k := by
  cases h <;> nofun

end Handler

/-- Why a request is not let in. -/
inductive AuthError
  | missing
  /-- The secret holds something other than visible characters, blanks and tabs. -/
  | invalid
  | wrong
  deriving DecidableEq, Repr

/-- The end for a request that is not let in. -/
def AuthError.handler : AuthError → Handler
  | missing => .refuse 401 "missing Mopl-Admin-Authorization header"
  | invalid => .refuse 400 "invalid Mopl-Admin-Authorization header"
  | wrong => .refuse 401 "invalid admin secret"

/-- The character can stand in a secret. -/
def isSecretChar (c : Char) : Bool := c = '\t' || (0x20 ≤ c.toNat && c.toNat ≤ 0x7E)

/-- Lets in who shows a secret that is verified. -/
def authorize (verify : String → Bool) : Option String → Except AuthError Unit
  | none => .error .missing
  | some s =>
    if ¬s.toList.all isSecretChar then .error .invalid
    else if verify s then .ok () else .error .wrong

/-- The handler of a request to a place. -/
def Resource.handler (r : Request) : Resource → Handler
  | .health => .answer (.record [("status", .text "healthy"), ("version", .text version)])
  | .stats => .count
  | .entries =>
    match ListQuery.ofForm? r.query with
    | some q => .list q.filter
    | none => .refuse 400 "Failed to deserialize query string"
  | .entry s =>
    match segmentId? s with
    | some id => .get id
    | none => .refuse 400 "Invalid URL"
  | .replay s =>
    match segmentId? s with
    | some id => .inspect id
    | none => .refuse 400 "Invalid URL"

/-- The handler of a request; `verify` tells whether a secret is the right one. -/
def Request.handler (r : Request) (verify : String → Bool) : Handler :=
  match Resource.ofPath? r.path with
  | none => .refuse 404 ""
  | some place =>
    if ¬place.allows r.method then .refuse 405 ""
    else if place.isOpen then place.handler r
    else
      match authorize verify r.secret with
      | .error e => e.handler
      | .ok () => place.handler r

/-- The response as it is sent: without a body if only the head was asked for. -/
def Request.deliver (r : Request) (s : Response) : Response :=
  if r.method = "HEAD" then { s with body := "" } else s

end Outbox.Admin
