import Outbox.Net.Ip

/-!
# Web addresses

An address in its parts, each already in the form in which it is written, and its text.
-/

namespace Outbox

open Net

/-- The host of an address. -/
inductive Url.Host
  /-- A name, possibly empty. -/
  | name (s : String)
  | v4 (ip : Ipv4)
  | v6 (ip : Ipv6)
  deriving DecidableEq, Repr

/-- Who is asked, and where. -/
structure Url.Authority where
  username : String
  /-- Not empty if it is there. -/
  password : Option String
  host : Url.Host
  /-- Missing if it is the usual port of the scheme. -/
  port : Option Nat
  deriving DecidableEq, Repr

/-- The path of an address. -/
inductive Url.Path
  /-- Segments, each behind a slash. -/
  | segments (names : List String)
  /-- A path that does not begin with a slash, and is not divided. -/
  | whole (s : String)
  deriving DecidableEq, Repr

/-- A web address. -/
structure Url where
  scheme : String
  authority : Option Url.Authority
  path : Url.Path
  query : Option String
  fragment : Option String
  deriving DecidableEq, Repr

namespace Url

def Host.text : Host → String
  | name s => s
  | v4 ip => ip.text
  | v6 ip => "[" ++ ip.text ++ "]"

namespace Authority

/-- The name and the password with the sign behind them; nothing if there are none. -/
def userText (a : Authority) : String :=
  match a.password with
  | some p => a.username ++ ":" ++ p ++ "@"
  | none => if a.username.isEmpty then "" else a.username ++ "@"

def hostText (a : Authority) : String :=
  match a.port with
  | some p => a.host.text ++ ":" ++ toString p
  | none => a.host.text

/-- The text of an authority, with the slashes before it. -/
def text (a : Authority) : String := "//" ++ a.userText ++ a.hostText

/-- The authority without name and password. -/
def anonymous (a : Authority) : Authority := { a with username := "", password := none }

end Authority

def Path.text : Path → String
  | segments names => String.join (names.map ("/" ++ ·))
  | whole s => s

/-- What keeps a path that begins with two slashes from being read as an authority. -/
def guardText (u : Url) : String :=
  match u.authority, u.path with
  | none, .segments ("" :: _ :: _) => "/."
  | _, _ => ""

/-- The part of an address behind a mark, if there is one. -/
def tailText (mark : String) : Option String → String
  | some s => mark ++ s
  | none => ""

def text (u : Url) : String :=
  u.scheme ++ ":" ++ (match u.authority with | some a => a.text | none => "") ++ u.guardText ++
    u.path.text ++ tailText "?" u.query ++ tailText "#" u.fragment

/-- The address without name and password. -/
def anonymous (u : Url) : Url := { u with authority := u.authority.map Authority.anonymous }

def hasHost (u : Url) : Bool :=
  match u.authority with
  | some a => a.host ≠ .name ""
  | none => false

/-- The address can be asked for over the web. -/
def isWeb (u : Url) : Bool := u.hasHost && (u.scheme = "http" || u.scheme = "https")

/-- The usual port of a scheme. Schemes with one, and `file`, always have an authority and take a
backslash for a slash. -/
def usualPort? (scheme : String) : Option Nat :=
  [("http", 80), ("https", 443), ("ws", 80), ("wss", 443), ("ftp", 21)].lookup scheme

/-- Why a text is no address. -/
inductive ParseError
  | relative
  | emptyHost
  | invalidName
  | invalidHostCharacter
  | invalidPort
  | invalidIpv4
  | invalidIpv6
  deriving DecidableEq, Repr

def ParseError.message : ParseError → String
  | relative => "relative URL without a base"
  | emptyHost => "empty host"
  | invalidName => "invalid international domain name"
  | invalidHostCharacter => "invalid domain character"
  | invalidPort => "invalid port number"
  | invalidIpv4 => "invalid IPv4 address"
  | invalidIpv6 => "invalid IPv6 address"

end Url
end Outbox
