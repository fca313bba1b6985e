import NameAdvisor.Json.Basic
import NameAdvisor.Text.Bytes

/-!
# Reading JSON

A reader of whole texts that says, when it fails, whether the text ended too early or is malformed.  Objects
keep their members as written; `Json.canonical` orders them.

## Main definitions

* `Json.Fault`: the two ways in which a text is not JSON.
* `Json.parse`: the value that a text writes.
* `Json.parseCanonical`: the same with objects in order of names.
-/

namespace NameAdvisor.Json

export Text (hexDigit?)

/-- Why a text is not JSON. -/
inductive Fault where
  /-- The text ends where more is needed. -/
  | incomplete
  /-- No continuation of the text would be JSON. -/
  | malformed
  deriving DecidableEq, Repr

/-- What a reader of a part gives: the part and the rest of the text. -/
abbrev Read (α : Type) : Type := Except Fault (α × List Char)

/-- Objects and arrays may be nested this deep, less one. -/
def depthLimit : Nat := 128

def isSpace (c : Char) : Bool :=
  c == ' ' || c == '\n' || c == '\t' || c == '\r'

/-- The text from its first character that is not white space. -/
def skipSpace (s : List Char) : List Char :=
  s.dropWhile isSpace

def readWord (word : List Char) (value : Json) (s : List Char) : Read Json :=
  match word, s with
  | [], rest => .ok (value, rest)
  | _ :: _, [] => .error .incomplete
  | w :: word, c :: rest => if w == c then readWord word value rest else .error .malformed

/-! ## Strings -/

/-- The number of bytes of the characters `s`. -/
def byteCount (s : List Char) : Nat :=
  s.foldl (fun n c => n + c.utf8Size) 0

def readFourHex (s : List Char) : Read Nat :=
  if byteCount (s.take 4) < 4 then .error .incomplete
  else
    match (s.take 4).mapM hexDigit? with
    | some [a, b, c, d] => .ok (((a * 16 + b) * 16 + c) * 16 + d, s.drop 4)
    | _ => .error .malformed

/-- Reads the digits of a `\u` escape, and the second half of a pair of surrogates. -/
def readUnicodeEscape (s : List Char) : Read Char :=
  match readFourHex s with
  | .error e => .error e
  | .ok (high, rest) =>
    if 0xDC00 ≤ high && high ≤ 0xDFFF then .error .malformed
    else if 0xD800 ≤ high && high ≤ 0xDBFF then
      match rest with
      | [] => .error .incomplete
      | ['\\'] => .error .incomplete
      | '\\' :: 'u' :: rest =>
        match readFourHex rest with
        | .error e => .error e
        | .ok (low, rest) =>
          if 0xDC00 ≤ low && low ≤ 0xDFFF then
            .ok (Char.ofNat (0x10000 + (high - 0xD800) * 0x400 + (low - 0xDC00)), rest)
          else .error .malformed
      | _ => .error .malformed
    else .ok (Char.ofNat high, rest)

/-- The character that a one-letter escape stands for. -/
def simpleEscape? (c : Char) : Option Char :=
  match c with
  | '"' => some '"'
  | '\\' => some '\\'
  | '/' => some '/'
  | 'b' => some '\x08'
  | 'f' => some '\x0c'
  | 'n' => some '\n'
  | 'r' => some '\r'
  | 't' => some '\t'
  | _ => none

/-- Reads a string after its opening quote; `acc` holds the characters so far, last first. -/
def readString (fuel : Nat) (acc : List Char) (s : List Char) : Read String :=
  match fuel with
  | 0 => .error .incomplete
  | fuel + 1 =>
    match s with
    | [] => .error .incomplete
    | '"' :: rest => .ok (String.ofList acc.reverse, rest)
    | '\\' :: rest =>
      match rest with
      | [] => .error .incomplete
      | 'u' :: rest =>
        match readUnicodeEscape rest with
        | .ok (c, rest) => readString fuel (c :: acc) rest
        | .error e => .error e
      | e :: rest =>
        match simpleEscape? e with
        | some c => readString fuel (c :: acc) rest
        | none => .error .malformed
    | c :: rest => if c.toNat < 0x20 then .error .malformed else readString fuel (c :: acc) rest

/-! ## Numbers -/

/-- The number of values of a word. -/
def wordLimit : Nat := Nat.pow 2 64

def digitValue (c : Char) : Nat :=
  c.toNat - '0'.toNat

/-- Multiplies or divides `x` by powers of ten until `exponent` is used up; nothing if the result is infinite. -/
def scaleByTens (fuel : Nat) (x : Float) (exponent : Int) : Option Float :=
  match fuel with
  | 0 => some x
  | fuel + 1 =>
    if exponent.natAbs ≤ 308 then
      if 0 ≤ exponent then
        let y := x * Float.ofScientific 1 false exponent.natAbs
        if y.isInf then none else some y
      else some (x / Float.ofScientific 1 false exponent.natAbs)
    else if x == 0.0 then some x
    else if 0 ≤ exponent then none
    else scaleByTens fuel (x / Float.ofScientific 1 false 308) (exponent + 308)

/-- The double nearest to `significand`, scaled by `exponent` tens. -/
def doubleOf (positive : Bool) (significand : Nat) (exponent : Int) : Except Fault Number :=
  match scaleByTens 8 (Float.ofNat significand) (max (-2000) (min 2000 exponent)) with
  | some x => .ok (.double (.ofFloat (if positive then x else -x)))
  | none => .error .malformed

/-- Reads an exponent after its sign; `up` says that it is not negative. -/
def readMagnitude (positive : Bool) (significand : Nat) (start : Int) (up : Bool) (s : List Char) : Read Number :=
  match s with
  | [] => .error .incomplete
  | c :: _ =>
    if !c.isDigit then .error .malformed
    else
      let ds := s.takeWhile Char.isDigit
      let rest := s.dropWhile Char.isDigit
      let size := ds.foldl (fun n d => 10 * n + digitValue d) 0
      if Nat.pow 2 31 ≤ size then
        if significand != 0 && up then .error .malformed
        else .ok (.double (.ofFloat (if positive then 0.0 else -0.0)), rest)
      else (doubleOf positive significand (if up then start + size else start - size)).map (·, rest)

/-- Reads an exponent after its letter. -/
def readExponent (positive : Bool) (significand : Nat) (start : Int) (s : List Char) : Read Number :=
  match s with
  | '+' :: rest => readMagnitude positive significand start true rest
  | '-' :: rest => readMagnitude positive significand start false rest
  | s => readMagnitude positive significand start true s

/-- Reads what follows the digits of a number that is not whole. -/
def readScaled (positive : Bool) (significand : Nat) (exponent : Int) (s : List Char) : Read Number :=
  match s with
  | 'e' :: rest => readExponent positive significand exponent rest
  | 'E' :: rest => readExponent positive significand exponent rest
  | s => (doubleOf positive significand exponent).map (·, s)

/-- Takes up digits while the significand stays a word: the significand, the number of digits taken, and the
digits left over. -/
def takeDigits (significand taken : Nat) : List Char → Nat × Nat × List Char
  | [] => (significand, taken, [])
  | d :: ds =>
    if significand * 10 + digitValue d < wordLimit then takeDigits (significand * 10 + digitValue d) (taken + 1) ds
    else (significand, taken, d :: ds)

/-- Reads a fraction after its point. -/
def readFraction (positive : Bool) (significand : Nat) (exponent : Int) (s : List Char) : Read Number :=
  match s with
  | [] => .error .incomplete
  | c :: _ =>
    if !c.isDigit then .error .malformed
    else
      let (significand, taken, _) := takeDigits significand 0 (s.takeWhile Char.isDigit)
      readScaled positive significand (exponent - taken) (s.dropWhile Char.isDigit)

/-- Reads a number after its sign. -/
def readNumber (positive : Bool) (s : List Char) : Read Number :=
  match s with
  | [] => .error .incomplete
  | c :: rest =>
    if !c.isDigit then .error .malformed
    else if c == '0' && (rest.head?.any Char.isDigit) then .error .malformed
    else
      let (significand, _, left) := takeDigits 0 0 (s.takeWhile Char.isDigit)
      let rest := s.dropWhile Char.isDigit
      let scaled := !left.isEmpty
      match rest with
      | '.' :: rest => readFraction positive significand left.length rest
      | 'e' :: rest => readExponent positive significand left.length rest
      | 'E' :: rest => readExponent positive significand left.length rest
      | rest =>
        if scaled then readScaled positive significand left.length rest
        else if positive then .ok (.natural significand, rest)
        else if significand == 0 || Nat.pow 2 63 < significand then
          .ok (.double (.ofFloat (-(Float.ofNat significand))), rest)
        else .ok (.negative (significand - 1), rest)

/-! ## Values -/

mutual

/-- Reads a value; `depth` counts the levels of nesting that are left. -/
def readValue (fuel depth : Nat) (s : List Char) : Read Json :=
  match fuel with
  | 0 => .error .incomplete
  | fuel + 1 =>
    match skipSpace s with
    | [] => .error .incomplete
    | 'n' :: rest => readWord ['u', 'l', 'l'] .null rest
    | 't' :: rest => readWord ['r', 'u', 'e'] (.bool true) rest
    | 'f' :: rest => readWord ['a', 'l', 's', 'e'] (.bool false) rest
    | '"' :: rest => (readString (rest.length + 1) [] rest).map fun (s, rest) => (.string s, rest)
    | '-' :: rest => (readNumber false rest).map fun (n, rest) => (.number n, rest)
    | '[' :: rest =>
      match depth with
      | 0 | 1 => .error .malformed
      | depth + 1 =>
        match skipSpace rest with
        | ']' :: rest => .ok (.array [], rest)
        | rest => (readItems fuel depth rest).map fun (items, rest) => (.array items, rest)
    | '\x7b' :: rest =>
      match depth with
      | 0 | 1 => .error .malformed
      | depth + 1 =>
        match skipSpace rest with
        | '\x7d' :: rest => .ok (.object [], rest)
        | rest => (readMembers fuel depth rest).map fun (members, rest) => (.object members, rest)
    | c :: rest =>
      if c.isDigit then (readNumber true (c :: rest)).map fun (n, rest) => (.number n, rest)
      else .error .malformed

/-- Reads the items of an array up to its closing bracket. -/
def readItems (fuel depth : Nat) (s : List Char) : Read (List Json) :=
  match fuel with
  | 0 => .error .incomplete
  | fuel + 1 =>
    match readValue fuel depth s with
    | .error e => .error e
    | .ok (j, rest) =>
      match skipSpace rest with
      | [] => .error .incomplete
      | ']' :: rest => .ok ([j], rest)
      | ',' :: rest => (readItems fuel depth rest).map fun (items, rest) => (j :: items, rest)
      | _ => .error .malformed

/-- Reads the members of an object up to its closing brace. -/
def readMembers (fuel depth : Nat) (s : List Char) : Read (List (String × Json)) :=
  match fuel with
  | 0 => .error .incomplete
  | fuel + 1 =>
    match skipSpace s with
    | [] => .error .incomplete
    | '"' :: rest =>
      match readString (rest.length + 1) [] rest with
      | .error e => .error e
      | .ok (key, rest) =>
        match skipSpace rest with
        | [] => .error .incomplete
        | ':' :: rest =>
          match readValue fuel depth rest with
          | .error e => .error e
          | .ok (j, rest) =>
            match skipSpace rest with
            | [] => .error .incomplete
            | '\x7d' :: rest => .ok ([(key, j)], rest)
            | ',' :: rest => (readMembers fuel depth rest).map fun (members, rest) => ((key, j) :: members, rest)
            | _ => .error .malformed
        | _ => .error .malformed
    | _ => .error .malformed

end

/-- The value that the whole of `s` writes; a level of nesting takes two units of fuel. -/
def parse (s : String) : Except Fault Json :=
  match readValue (2 * s.toList.length + 2) depthLimit s.toList with
  | .error e => .error e
  | .ok (j, rest) => if (skipSpace rest).isEmpty then .ok j else .error .malformed

/-- The value that the whole of `s` writes, with objects in order of names. -/
def parseCanonical (s : String) : Except Fault Json :=
  (parse s).map canonical

end NameAdvisor.Json
