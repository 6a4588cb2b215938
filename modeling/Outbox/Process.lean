import Outbox.Broker.Message
import Outbox.Store.Call

/-!
# Processes step by step

A process is a type of phases with a function that says, for each phase, what the process asks for
next. Whoever runs it answers, and the process goes on in the phase that the answer leads to. So
the answers of one process can be mixed with those of others in any order.
-/

namespace Outbox

/-- What a process with phases `σ` asks for next. -/
inductive Ask (σ ρ : Type)
  /-- It asks for nothing more; this is its result. -/
  | done (result : ρ)
  /-- It calls the store. -/
  | call (c : Call) (next : c.Answer → σ)
  /-- It sends a message; without an answer the send has timed out. -/
  | send (m : Message) (next : Option Delivery → σ)

end Outbox
