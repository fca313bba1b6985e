import NameAdvisor.Network.Host

/-!
# Web addresses

Addresses of the schemes `http` and `https`, read the way browsers read them.

## Main definitions

* `Url`: the parts of an address that a request needs.
* `Url.authorityOf`: who asks which server.
* `Url.parse?`: the address that a text writes.
-/

namespace NameAdvisor

/-- A name and a password; one that is missing is empty. -/
structure Credentials where
  name : String
  password : String
  deriving DecidableEq, Repr, Inhabited

/-- Which server is asked, and as whom. -/
structure Authority where
  credentials : Option Credentials := none
  /-- The host, in the one form of all its spellings. -/
  host : String
  /-- The number after the host, where it is not the scheme's own. -/
  portNumber : Option Nat
  deriving DecidableEq, Repr, Inhabited

/-- An address as a request needs it. -/
structure Url extends Authority where
  /-- Whether the connection is encrypted. -/
  secure : Bool
  /-- The path as it is sent: it starts with a slash and is percent-encoded. -/
  path : String
  /-- The query as it is sent, if there is one. -/
  query : Option String
  deriving DecidableEq, Repr, Inhabited

namespace Url

/-- What a request line names: the path and the query. -/
def target (u : Url) : String :=
  match u.query with
  | some q => u.path ++ "?" ++ q
  | none => u.path

/-- A byte as a percent sign and two digits. -/
def percentByte (b : UInt8) : List Char :=
  let digits := (Nat.toDigits 16 b.toNat).map Char.toUpper
  '%' :: (List.replicate (2 - digits.length) '0' ++ digits)

def percentEncode (c : Char) : List Char :=
  (String.singleton c).toByteArray.toList.flatMap percentByte

def encodedInPath (c : Char) : Bool :=
  c.toNat ≤ 0x20 || 0x7E < c.toNat || ['"', '#', '<', '>', '?', '^', '\x7b', '\x7d', '\x60'].contains c

def encodedInQuery (c : Char) : Bool :=
  c.toNat ≤ 0x20 || 0x7E < c.toNat || ['"', '#', '<', '>', '\''].contains c

/-- `s` with the characters that `encoded` names percent-encoded. -/
def encodeWith (encoded : Char → Bool) (s : List Char) : List Char :=
  s.flatMap fun c => if encoded c then percentEncode c else [c]

def isSlash (c : Char) : Bool :=
  c == '/' || c == '\\'

/-- The pieces of `s` between its slashes. -/
def segments : List Char → List (List Char)
  | [] => [[]]
  | c :: s =>
    match segments s with
    | piece :: rest => if isSlash c then [] :: piece :: rest else (c :: piece) :: rest
    | [] => [[c]]

/-- A segment with its written-out points decoded, in lower case. -/
def plainPoints (segment : List Char) : List Char :=
  match segment with
  | '%' :: '2' :: c :: rest => if c == 'e' || c == 'E' then '.' :: plainPoints rest else '%' :: '2' :: c :: rest
  | '.' :: rest => '.' :: plainPoints rest
  | s => s

/-- Drops the segments that stand for the place itself and takes back a segment for each step up; `done` holds the
segments so far, last first. -/
def normalize (done : List (List Char)) : List (List Char) → List (List Char)
  | [] => done.reverse
  | [last] =>
    if plainPoints last = ['.'] then ([] :: done).reverse
    else if plainPoints last = ['.', '.'] then ([] :: done.drop 1).reverse
    else (last :: done).reverse
  | segment :: rest =>
    if plainPoints segment = ['.'] then normalize done rest
    else if plainPoints segment = ['.', '.'] then normalize (done.drop 1) rest
    else normalize (segment :: done) rest

/-- The path that the characters after the authority write. -/
def pathOf (s : List Char) : List Char :=
  let pieces := match s with
    | c :: rest => if isSlash c then segments rest else segments (c :: rest)
    | [] => [[]]
  '/' :: ['/'].intercalate ((normalize [] pieces).map (encodeWith encodedInPath))

/-- The number that the characters `s` write after a host: nothing for the scheme's own. -/
def portNumberOf (secure : Bool) (s : List Char) : Option (Option Nat) :=
  if s.isEmpty then some none
  else if !s.all Char.isDigit then none
  else
    let n := s.foldl (fun n c => 10 * n + (c.toNat - '0'.toNat)) 0
    if 65535 < n then none
    else some (if n = (if secure then 443 else 80) then none else some n)

/-- The characters before the last `@`, if there is one. -/
def userOf (s : List Char) : List Char :=
  ((s.reverse.dropWhile (· ≠ '@')).drop 1).reverse

/-- The characters after the last `@`. -/
def afterUser (s : List Char) : List Char :=
  (s.reverse.takeWhile (· ≠ '@')).reverse

/-- The name before the first colon and the password after it.  A password that is no text counts as missing; if the
name is none, nobody is named. -/
def credentialsOf (s : List Char) : Option Credentials := do
  let name ← decoded? (s.takeWhile (· ≠ ':'))
  let password := (decoded? ((s.dropWhile (· ≠ ':')).drop 1)).getD ""
  if name.isEmpty && password.isEmpty then none else some { name, password }

/-- The number of characters before the first colon that does not stand in brackets. -/
def hostSize (inBrackets : Bool) : List Char → Nat
  | [] => 0
  | c :: s => if c == ':' && !inBrackets then 0 else hostSize (c == '[' || (inBrackets && c != ']')) s + 1

/-- The credentials, the host and the number after it that an authority writes. -/
def authorityOf (secure : Bool) (s : List Char) : Option Authority :=
  let server := afterUser s
  let size := hostSize false server
  match hostOf (server.take size), portNumberOf secure ((server.drop size).drop 1) with
  | some host, some portNumber => some { credentials := credentialsOf (userOf s), host, portNumber }
  | _, _ => none

def isControlOrSpace (c : Char) : Bool :=
  c.toNat ≤ 0x20

/-- The address that `text` writes, if it is one of the web. -/
def parse? (text : String) : Option Url :=
  let trimmed := ((text.toList.dropWhile isControlOrSpace).reverse.dropWhile isControlOrSpace).reverse
  let s := trimmed.filter fun c => c ≠ '\t' && c ≠ '\n' && c ≠ '\r'
  let scheme := (s.takeWhile (· ≠ ':')).map Char.toLower
  let rest := (s.dropWhile (· ≠ ':')).drop 1
  if s.all (· ≠ ':') then none
  else if scheme ≠ ['h', 't', 't', 'p'] && scheme ≠ ['h', 't', 't', 'p', 's'] then none
  else
    let secure := scheme = ['h', 't', 't', 'p', 's']
    let rest := rest.dropWhile isSlash
    let ends (c : Char) : Bool := isSlash c || c == '?' || c == '#'
    match authorityOf secure (rest.takeWhile (!ends ·)) with
    | none => none
    | some authority =>
      let tail := (rest.dropWhile (!ends ·)).takeWhile (· ≠ '#')
      let path := tail.takeWhile (· ≠ '?')
      let query := match tail.dropWhile (· ≠ '?') with
        | _ :: q => some (String.ofList (encodeWith encodedInQuery q))
        | [] => none
      some { authority with secure, path := String.ofList (pathOf path), query }

end Url

end NameAdvisor
