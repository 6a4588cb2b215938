import Outbox.Url.Host

/-!
# Reading addresses

White space around an address and tabs and ends of lines within it do not count. Everything is
written in one form: dots in the path are resolved, and characters that cannot stand where they do
are encoded.
-/

namespace Outbox.Url

/-- The address without what does not count. -/
def trim (cs : List Char) : List Char :=
  let drop (cs : List Char) := cs.dropWhile fun c => c.toNat ≤ 0x20
  (drop (drop cs).reverse).reverse.filter fun c => c ≠ '\t' && c ≠ '\n' && c ≠ '\r'

def isSchemeChar (c : Char) : Bool := c.isAlphanum || c = '+' || c = '-' || c = '.'

def takeScheme (cs : List Char) : Except ParseError (String × List Char) :=
  let s := cs.takeWhile isSchemeChar
  match cs.dropWhile isSchemeChar with
  | ':' :: r =>
    if s.head?.any Char.isAlpha then return (String.ofList (s.map Char.toLower), r)
    else throw .relative
  | _ => throw .relative

/-- Cuts a text before a mark and behind it. -/
def cut (mark : Char) (cs : List Char) : List Char × Option (List Char) :=
  (cs.takeWhile (· ≠ mark), (cs.dropWhile (· ≠ mark)).tail?)

/-- The schemes that take a backslash for a slash. -/
def isSpecial (scheme : String) : Bool := scheme = "file" || (usualPort? scheme).isSome

def isSlash (special : Bool) (c : Char) : Bool := c = '/' || (special && c = '\\')

/-! ### Authorities -/

/-- What is encoded in a fragment. -/
def fragmentSet : List Char := [' ', '"', '<', '>', '`']

/-- What is encoded in a path. -/
def pathSet : List Char := fragmentSet ++ ['#', '?', '{', '}']

/-- What is encoded in names and passwords. -/
def userSet : List Char := pathSet ++ ['/', ':', ';', '=', '@', '[', '\\', ']', '^', '|']

/-- What is encoded in a query. -/
def querySet (special : Bool) : List Char :=
  [' ', '"', '#', '<', '>'] ++ if special then ['\''] else []

/-- Splits the host off behind the last sign of a user. -/
def splitUser (cs : List Char) : Option (List Char) × List Char :=
  if cs.contains '@' then
    let back := cs.reverse
    (some (back.dropWhile (· ≠ '@')).tail.reverse, (back.takeWhile (· ≠ '@')).reverse)
  else (none, cs)

/-- Splits the port off at the first colon outside brackets. -/
def splitPort (inside : Bool) : List Char → List Char × Option (List Char)
  | [] => ([], none)
  | c :: r =>
    if c = ':' && !inside then ([], some r)
    else
      let (host, port) := splitPort (if c = '[' then true else if c = ']' then false else inside) r
      (c :: host, port)

/-- Reads a port; the usual one and an empty one do not count. -/
def port? (scheme : String) : Option (List Char) → Except ParseError (Option Nat)
  | none | some [] => return none
  | some cs =>
    match Text.below? 10 (Nat.pow 2 16) cs with
    | some p => return if usualPort? scheme = some p then none else some p
    | none => throw .invalidPort

def Authority.parse (scheme : String) (cs : List Char) : Except ParseError Authority := do
  let (user, rest) := splitUser cs
  let (hostText, portText) := splitPort false rest
  let special := isSpecial scheme
  if hostText.isEmpty ∧ (special ∨ user.isSome ∨ portText.isSome) then throw .emptyHost
  let host ← Host.parse special hostText
  let port ← port? scheme portText
  let (username, password) := cut ':' (user.getD [])
  return {
    username := encode userSet username
    password := (password.filter (!·.isEmpty)).map (encode userSet)
    host
    port }

/-! ### Paths -/

/-- A dot, written as itself or encoded. -/
def dots : List Char → Option Nat
  | [] => some 0
  | '.' :: r => (dots r).map (· + 1)
  | '%' :: '2' :: e :: r => if e = 'e' ∨ e = 'E' then (dots r).map (· + 1) else none
  | _ => none

/-- Resolves segments of one dot, which stay where they are, and of two, which go up by one; the
first argument holds the segments so far, the last of them first. A path that ends so ends with a
slash. -/
def resolve : List String → List (List Char) → List String
  | done, [] => done.reverse
  | done, s :: rest =>
    let close (done : List String) : List String := if rest.isEmpty then "" :: done else done
    match dots s with
    | some 1 => resolve (close done) rest
    | some 2 => resolve (close done.tail) rest
    | _ => resolve (encode pathSet s :: done) rest

def splitSlashes (special : Bool) (cs : List Char) : List (List Char) :=
  (cs.map fun c => if isSlash special c then '/' else c).splitOn '/'

/-- Reads a path that begins with a slash; a special scheme has one even if nothing is written. -/
def segmentsOf (special : Bool) : List Char → List String
  | [] => if special then [""] else []
  | _ :: r => resolve [] (splitSlashes special r)

/-- The path of a file begins with a single slash. -/
def dropEmpty : List String → List String
  | "" :: s :: r => dropEmpty (s :: r)
  | r => r

/-- Reads what stands between the scheme and the query of a file. -/
def parseFile (cs : List Char) : Except ParseError (Authority × Path) := do
  let path (cs : List Char) : Path := .segments (dropEmpty (segmentsOf true cs))
  match cs with
  | a :: b :: r =>
    if isSlash true a && isSlash true b then
      let hostText := r.takeWhile fun c => !isSlash true c
      let rest := r.dropWhile fun c => !isSlash true c
      if hostText.isEmpty then return (⟨"", none, .name "", none⟩, path rest)
      let host ← Host.parse true hostText
      return (⟨"", none, if host = .name "localhost" then .name "" else host, none⟩, path rest)
    else if isSlash true a then return (⟨"", none, .name "", none⟩, path cs)
    else return (⟨"", none, .name "", none⟩, path ('/' :: cs))
  | [a] => return (⟨"", none, .name "", none⟩, path (if isSlash true a then cs else '/' :: cs))
  | [] => return (⟨"", none, .name "", none⟩, path [])

/-- Reads an authority and the path behind it. -/
def parseAuthority (scheme : String) (cs : List Char) : Except ParseError (Authority × Path) := do
  let special := isSpecial scheme
  let authority ← Authority.parse scheme (cs.takeWhile fun c => !isSlash special c)
  return (authority, .segments (segmentsOf special (cs.dropWhile fun c => !isSlash special c)))

/-- Reads what stands between the scheme and the query. -/
def parseBody (scheme : String) (cs : List Char) :
    Except ParseError (Option Authority × Path) := do
  if scheme = "file" then return (← parseFile cs).map some id
  else if isSpecial scheme then
    return (← parseAuthority scheme (cs.dropWhile (isSlash true))).map some id
  else
    match cs with
    | '/' :: '/' :: r => return (← parseAuthority scheme r).map some id
    | '/' :: r => return (none, .segments (segmentsOf false ('/' :: r)))
    | r => return (none, .whole (encode [] r))

def parse (s : String) : Except ParseError Url := do
  let (scheme, cs) ← takeScheme (trim s.toList)
  let (cs, fragment) := cut '#' cs
  let (cs, query) := cut '?' cs
  let (authority, path) ← parseBody scheme cs
  return {
    scheme
    authority
    path
    query := query.map (encode (querySet (isSpecial scheme)))
    fragment := fragment.map (encode fragmentSet) }

end Outbox.Url
