import NameAdvisor.Text.Bytes
import NameAdvisor.Text.Search
import NameAdvisor.Text.Utf8

/-!
# Hosts in web addresses

A host is a name or an address in numbers.  A name is brought to lower case, its percent-encoded bytes decoded, and an
address in numbers to the one form that all its spellings share.  A name with characters outside ASCII, or with parts
that stand for such (`xn--`), stays as it is written: whoever looks it up turns it into ASCII, and whether it may hold
those characters is not asked here.

## Main definitions

* `Url.percentDecode`: the bytes that the characters of an address stand for.
* `Url.ipv4?`, `Url.ipv6?`: addresses in numbers.
* `Url.hostOf`: the host that characters write.
-/

namespace NameAdvisor.Url

open Text (hexDigit? splitChars)

/-- The bytes that the characters of an address stand for. -/
def percentDecode : List Char → List UInt8
  | [] => []
  | '%' :: a :: b :: rest =>
    match hexDigit? a, hexDigit? b with
    | some high, some low => UInt8.ofNat (16 * high + low) :: percentDecode rest
    | _, _ => String.utf8EncodeChar '%' ++ percentDecode (a :: b :: rest)
  | c :: rest => String.utf8EncodeChar c ++ percentDecode rest

/-- The text that percent-encoded characters stand for, if it is one. -/
def decoded? (s : List Char) : Option String :=
  Utf8.decode ⟨(percentDecode s).toArray⟩

/-- The number that `s` writes in digits of `base`. -/
def digits? (base : Nat) (s : List Char) : Option Nat :=
  s.foldlM (fun n c => ((hexDigit? c).filter (· < base)).map (base * n + ·)) 0

/-! ## Four bytes -/

/-- The number that a part of an IPv4 address writes: in hexadecimal digits after `0x`, in octal ones after a zero, and
else in decimal ones. -/
def ipv4Part? : List Char → Option Nat
  | [] => none
  | '0' :: c :: s => if c == 'x' || c == 'X' then digits? 16 s else digits? 8 (c :: s)
  | s => digits? 10 s

/-- The parts of a host between its points, but for an empty one at the end. -/
def hostParts (s : List Char) : List (List Char) :=
  let parts := splitChars '.' s
  if parts.getLast? = some [] then parts.dropLast else parts

/-- Whether a host ends in a number and so is an IPv4 address or none at all. -/
def endsInNumber (s : List Char) : Bool :=
  match (hostParts s).getLast? with
  | some part => (!part.isEmpty && part.all Char.isDigit) || (ipv4Part? part).isSome
  | none => false

/-- The lowest bytes of a number, as many as are asked for, the highest of them first. -/
def bytesOf : Nat → Nat → List Nat
  | 0, _ => []
  | count + 1, n => bytesOf count (n / 256) ++ [n % 256]

/-- The IPv4 address that `s` writes in up to four numbers: a byte each, and the last one fills what is left. -/
def ipv4? (s : List Char) : Option (List Nat) := do
  let numbers ← (hostParts s).mapM ipv4Part?
  let last ← numbers.getLast?
  let bytes := numbers.dropLast
  if bytes.length < 4 && bytes.all (· < 256) && last < Nat.pow 256 (4 - bytes.length) then
    return bytes ++ bytesOf (4 - bytes.length) last
  else none

def ipv4Text (bytes : List Nat) : List Char :=
  ['.'].intercalate (bytes.map (Nat.toDigits 10))

/-! ## Eight groups -/

/-- A byte in decimal digits, without zeros before it. -/
def byte? (s : List Char) : Option Nat :=
  if s.isEmpty || (s.head? == some '0' && s.length != 1) then none else (digits? 10 s).filter (· < 256)

/-- A group of an IPv6 address, in one to four hexadecimal digits. -/
def ipv6Group? (s : List Char) : Option Nat :=
  if s.isEmpty || 4 < s.length then none else digits? 16 s

/-- The groups that `parts` write; the last part may be an IPv4 address instead, which makes two. -/
def ipv6Groups? : List (List Char) → Option (List Nat)
  | [] => some []
  | [part] =>
    if part.contains '.' then
      match (splitChars '.' part).mapM byte? with
      | some [a, b, c, d] => some [256 * a + b, 256 * c + d]
      | _ => none
    else (ipv6Group? part).map ([·])
  | part :: rest => do
    let group ← ipv6Group? part
    let groups ← ipv6Groups? rest
    return group :: groups

/-- The characters before the first two colons in a row, and those after them. -/
def cutAtColons? : List Char → Option (List Char × List Char)
  | [] => none
  | ':' :: ':' :: s => some ([], s)
  | c :: s => (cutAtColons? s).map fun cut => (c :: cut.1, cut.2)

/-- The IPv6 address that `s` writes; two colons in a row stand for the groups of zero that are left out. -/
def ipv6? (s : List Char) : Option (List Nat) :=
  match cutAtColons? s with
  | none => (ipv6Groups? (splitChars ':' s)).filter (·.length = 8)
  | some (before, after) => do
    let front ← if before.isEmpty then some [] else (splitChars ':' before).mapM ipv6Group?
    let back ← if after.isEmpty then some [] else ipv6Groups? (splitChars ':' after)
    if front.length + back.length < 8 then
      return front ++ List.replicate (8 - (front.length + back.length)) 0 ++ back
    else none

/-- The number of zeros in a row from the group number `i` on. -/
def zerosFrom (groups : List Nat) (i : Nat) : Nat :=
  ((groups.drop i).takeWhile (· = 0)).length

/-- An IPv6 address with two colons for the first of its longest runs of zeros, if that has more than one. -/
def ipv6Text (groups : List Nat) : List Char :=
  let written (groups : List Nat) := [':'].intercalate (groups.map (Nat.toDigits 16))
  let starts := List.range groups.length
  let longest := (starts.map (zerosFrom groups)).foldl max 0
  match starts.find? fun i => zerosFrom groups i = longest with
  | some i =>
    if longest < 2 then written groups
    else written (groups.take i) ++ [':', ':'] ++ written (groups.drop (i + longest))
  | none => written groups

/-! ## Hosts -/

/-- The characters that the name of a host cannot hold in a request. -/
def forbiddenInHost (c : Char) : Bool :=
  c.toNat ≤ 0x20 || c.toNat == 0x7F ||
    ['#', '%', '/', ':', '<', '>', '?', '@', '[', '\\', ']', '^', '|', '"', '\x60', '\x7b', '\x7d'].contains c

/-- The host that the characters `s` write outside brackets; characters outside ASCII are kept. -/
def namedHost? (s : List Char) : Option String := do
  let text ← decoded? s
  let name := text.toList.map Char.toLower
  if name.any forbiddenInHost then none
  else if endsInNumber name then (ipv4? name).map fun bytes => String.ofList (ipv4Text bytes)
  else return String.ofList name

/-- The host that the characters `s` write, if they can be one. -/
def hostOf : List Char → Option String
  | [] => none
  | '[' :: s =>
    if s.getLast? = some ']' then
      (ipv6? s.dropLast).map fun groups => String.ofList (['['] ++ ipv6Text groups ++ [']'])
    else none
  | s => namedHost? s

end NameAdvisor.Url
