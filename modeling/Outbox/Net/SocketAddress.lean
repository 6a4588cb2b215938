import Outbox.Net.Ip

/-!
# Addresses to listen on

An address with a port. One of version 6 stands in brackets and can name a scope by number.
-/

namespace Outbox.Net

/-- An address with a port. -/
inductive SocketAddress
  | v4 (ip : Ipv4) (port : Nat)
  | v6 (ip : Ipv6) (scope port : Nat)
  deriving DecidableEq, Repr

namespace SocketAddress

/-- Every address of the machine, at port 8080. -/
def default : SocketAddress := v4 ⟨0, 0, 0, 0⟩ 8080

def port? (cs : List Char) : Option Nat := Text.below? 10 (Nat.pow 2 16) cs

/-- An address of version 6 behind its opening bracket, and the port. -/
def parseV6? (cs : List Char) : Option SocketAddress :=
  match cs.dropWhile (· ≠ ']') with
  | ']' :: ':' :: port => do
    let inner := cs.takeWhile (· ≠ ']')
    let ip ← Ipv6.parse? (inner.takeWhile (· ≠ '%'))
    let scope ← match inner.dropWhile (· ≠ '%') with
      | [] => some 0
      | _ :: scope => Text.below? 10 (Nat.pow 2 32) scope
    return v6 ip scope (← port? port)
  | _ => none

/-- Reads an address with a port. -/
def parse? (s : String) : Option SocketAddress :=
  match s.toList with
  | '[' :: r => parseV6? r
  | cs =>
    match cs.dropWhile (· ≠ ':') with
    | _ :: port => do return v4 (← Ipv4.parse? (cs.takeWhile (· ≠ ':'))) (← port? port)
    | [] => none

/-- The text of an address of version 6; one that stands for an address of version 4 shows it. -/
def v6Text (ip : Ipv6) : String :=
  match ip.mapped? with
  | some i => "::ffff:" ++ i.text
  | none => ip.text

/-- The text of an address with a port. -/
def text : SocketAddress → String
  | v4 ip port => ip.text ++ ":" ++ toString port
  | v6 ip scope port =>
    let scopeText := if scope = 0 then "" else "%" ++ toString scope
    "[" ++ v6Text ip ++ scopeText ++ "]:" ++ toString port

end SocketAddress
end Outbox.Net
