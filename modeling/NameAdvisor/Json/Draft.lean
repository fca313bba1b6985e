import NameAdvisor.Json.Parser
import NameAdvisor.Text.Utf8

/-!
# Drafts of JSON values

Bytes are read once, from front to back, by a reader that wants some parts of them and passes over the others.  What is
passed over may be less clean than what is read: its strings may hold bytes that belong to no character or halves of
pairs of surrogates, its numbers may be too large, and it may be nested to any depth.

A draft is what such a reader has before it.  It says of each part both what reading it gives and at which fault passing
over it stops, and it goes as far as the bytes do, so that faults are met in the order in which they stand there.

## Main definitions

* `Json.Draft`: what bytes write, as far as they go.
* `Json.Draft.fault?`: the fault at which passing over a draft stops.
* `Json.Draft.ofBytes`: the draft of some bytes, and the fault in what comes after it.
-/

namespace NameAdvisor.Json

/-- What bytes write, as far as they go. -/
inductive Draft where
  | null
  | bool (b : Bool)
  /-- A number, as it is read, and the fault at which passing over it stops. -/
  | number (read : Except Fault Number) (fault : Option Fault)
  /-- A string, as it is read, and the fault at which passing over it stops. -/
  | string (read : Except Fault String) (fault : Option Fault)
  /-- An array, and the fault after its items if it is not closed there. -/
  | array (items : List Draft) (fault : Option Fault)
  /-- An object with the names of its members as they are read, and the fault after them if it is not closed there. -/
  | object (members : List (Except Fault String × Draft)) (fault : Option Fault)
  /-- The place of a value, where none can be told. -/
  | broken (fault : Fault)
  deriving Inhabited

namespace Draft

mutual

/-- The first fault at which passing over a draft stops. -/
def fault? : Draft → Option Fault
  | null => none
  | bool _ => none
  | number _ fault => fault
  | string _ fault => fault
  | array items fault => (itemsFault? items).or fault
  | object members fault => (membersFault? members).or fault
  | broken fault => some fault

def itemsFault? : List Draft → Option Fault
  | [] => none
  | d :: rest => d.fault?.or (itemsFault? rest)

def membersFault? : List (Except Fault String × Draft) → Option Fault
  | [] => none
  | (_, d) :: rest => d.fault?.or (membersFault? rest)

end

/-! ## Strings -/

/-- A part of a string. -/
inductive Letter where
  /-- A character; nothing for a byte that belongs to none. -/
  | plain (c : Option Char)
  /-- A code unit, given by its number. -/
  | unit (n : Nat)

/-- The code unit that four hexadecimal digits give. -/
def unit? (a b c d : Option Char) : Option Nat :=
  match a.bind hexDigit?, b.bind hexDigit?, c.bind hexDigit?, d.bind hexDigit? with
  | some a, some b, some c, some d => some (((a * 16 + b) * 16 + c) * 16 + d)
  | _, _, _, _ => none

/-- The fault of an escape that is followed by fewer than four characters. -/
def unitFault (few : List (Option Char)) : Fault :=
  if few.foldl (fun n c => n + c.elim 1 Char.utf8Size) 0 < 4 then .incomplete else .malformed

/-- The letters of a string after its opening quote, up to the closing one or to a fault; and what comes after it. -/
def letters : List (Option Char) → List Letter × Except Fault (List (Option Char))
  | [] => ([], .error .incomplete)
  | some '"' :: rest => ([], .ok rest)
  | some '\\' :: some 'u' :: a :: b :: c :: d :: rest =>
    match unit? a b c d with
    | some n => (.unit n :: (letters rest).1, (letters rest).2)
    | none => ([], .error .malformed)
  | some '\\' :: some 'u' :: few => ([], .error (unitFault few))
  | [some '\\'] => ([], .error .incomplete)
  | some '\\' :: e :: rest =>
    match e.bind simpleEscape? with
    | some c => (.plain (some c) :: (letters rest).1, (letters rest).2)
    | none => ([], .error .malformed)
  | c :: rest =>
    if c.any (·.toNat < 0x20) then ([], .error .malformed)
    else (.plain c :: (letters rest).1, (letters rest).2)

def isHigh (n : Nat) : Bool :=
  0xD800 ≤ n && n ≤ 0xDBFF

def isLow (n : Nat) : Bool :=
  0xDC00 ≤ n && n ≤ 0xDFFF

/-- The characters that letters spell; `gap` tells of a byte before them that belongs to no character, and `fault` of
what comes after them instead of the closing quote. -/
def spell (gap : Bool) (fault : Option Fault) : List Letter → Except Fault (List Char)
  | [] =>
    match fault with
    | some f => .error f
    | none => if gap then .error .malformed else .ok []
  | .plain none :: rest => spell true fault rest
  | .plain (some c) :: rest => (spell gap fault rest).map (c :: ·)
  | .unit high :: rest =>
    if isLow high then .error .malformed
    else if isHigh high then
      match rest with
      | .unit low :: rest =>
        if isLow low then
          (spell gap fault rest).map (Char.ofNat (0x10000 + (high - 0xD800) * 0x400 + (low - 0xDC00)) :: ·)
        else .error .malformed
      | .plain _ :: _ => .error .malformed
      | [] => .error (fault.getD .malformed)
    else (spell gap fault rest).map (Char.ofNat high :: ·)

/-- The fault at which a pass stops, if it does. -/
def stop? (rest : Except Fault (List (Option Char))) : Option Fault :=
  match rest with
  | .ok _ => none
  | .error f => some f

/-- A string after its opening quote, as it is read; and what comes after it. -/
def readText (s : List (Option Char)) : Except Fault String × Except Fault (List (Option Char)) :=
  let (ls, rest) := letters s
  ((spell false (stop? rest) ls).map String.ofList, rest)

/-! ## Numbers -/

def isDigit? (c : Option Char) : Bool :=
  c.any Char.isDigit

/-- What comes after one or more digits. -/
def pastDigits : List (Option Char) → Except Fault (List (Option Char))
  | c :: rest => if isDigit? c then .ok (rest.dropWhile isDigit?) else .error .malformed
  | [] => .error .malformed

def dropSign : List (Option Char) → List (Option Char)
  | some '+' :: rest => rest
  | some '-' :: rest => rest
  | rest => rest

/-- What comes after an exponent, if there is one. -/
def pastExponent : List (Option Char) → Except Fault (List (Option Char))
  | some 'e' :: rest => pastDigits (dropSign rest)
  | some 'E' :: rest => pastDigits (dropSign rest)
  | rest => .ok rest

/-- What comes after a fraction and an exponent, if there are any. -/
def pastFraction : List (Option Char) → Except Fault (List (Option Char))
  | some '.' :: rest => (pastDigits rest).bind pastExponent
  | rest => pastExponent rest

/-- What comes after a number without its sign. -/
def pastNumber : List (Option Char) → Except Fault (List (Option Char))
  | some '0' :: rest => if rest.head?.any isDigit? then .error .malformed else pastFraction rest
  | s => (pastDigits s).bind pastFraction

/-- Whether a character can stand in a number. -/
def inNumber (c : Char) : Bool :=
  c.isDigit || c == '+' || c == '-' || c == '.' || c == 'e' || c == 'E'

/-- The characters that decide how a number is read: those that can stand in it, and one that cannot if more follow. -/
def numeral : List (Option Char) → List Char
  | some c :: rest => if inNumber c then c :: numeral rest else [' ']
  | none :: _ => [' ']
  | [] => []

/-- A number after its sign; and what comes after it. -/
def readNumber (positive : Bool) (s : List (Option Char)) : Draft × Except Fault (List (Option Char)) :=
  let rest := pastNumber s
  (number ((Json.readNumber positive (numeral s)).map Prod.fst) (stop? rest), rest)

/-! ## Values -/

def skipSpace (s : List (Option Char)) : List (Option Char) :=
  s.dropWhile (·.any isSpace)

def readWord (word : List Char) (value : Draft) (s : List (Option Char)) : Draft × Except Fault (List (Option Char)) :=
  match word, s with
  | [], rest => (value, .ok rest)
  | _ :: _, [] => (broken .incomplete, .error .incomplete)
  | w :: word, c :: rest =>
    if c = some w then readWord word value rest else (broken .malformed, .error .malformed)

/-- What comes after the colon between the name of a member and its value. -/
def pastColon (s : List (Option Char)) : Except Fault (List (Option Char)) :=
  match skipSpace s with
  | [] => .error .incomplete
  | some ':' :: rest => .ok rest
  | _ => .error .malformed

mutual

/-- The draft of a value; and what comes after it. -/
def readValue (fuel : Nat) (s : List (Option Char)) : Draft × Except Fault (List (Option Char)) :=
  match fuel with
  | 0 => (broken .incomplete, .error .incomplete)
  | fuel + 1 =>
    match skipSpace s with
    | [] => (broken .incomplete, .error .incomplete)
    | some 'n' :: rest => readWord ['u', 'l', 'l'] null rest
    | some 't' :: rest => readWord ['r', 'u', 'e'] (bool true) rest
    | some 'f' :: rest => readWord ['a', 'l', 's', 'e'] (bool false) rest
    | some '"' :: rest =>
      let (read, rest) := readText rest
      (string read (stop? rest), rest)
    | some '-' :: rest => readNumber false rest
    | some '[' :: rest =>
      match skipSpace rest with
      | some ']' :: rest => (array [] none, .ok rest)
      | rest =>
        let (items, fault, rest) := readItems fuel rest
        (array items fault, rest)
    | some '\x7b' :: rest =>
      match skipSpace rest with
      | some '\x7d' :: rest => (object [] none, .ok rest)
      | rest =>
        let (members, fault, rest) := readMembers fuel rest
        (object members fault, rest)
    | c :: rest =>
      if isDigit? c then readNumber true (c :: rest) else (broken .malformed, .error .malformed)

/-- The drafts of the items of an array and the fault after them, up to its closing bracket; and what comes after it. -/
def readItems (fuel : Nat) (s : List (Option Char)) :
    List Draft × Option Fault × Except Fault (List (Option Char)) :=
  match fuel with
  | 0 => ([], some .incomplete, .error .incomplete)
  | fuel + 1 =>
    let (d, rest) := readValue fuel s
    match rest with
    | .error f => ([d], none, .error f)
    | .ok rest =>
      match skipSpace rest with
      | [] => ([d], some .incomplete, .error .incomplete)
      | some ']' :: rest => ([d], none, .ok rest)
      | some ',' :: rest =>
        let (items, fault, rest) := readItems fuel rest
        (d :: items, fault, rest)
      | _ => ([d], some .malformed, .error .malformed)

/-- The drafts of the members of an object and the fault after them, up to its closing brace; and what comes after. -/
def readMembers (fuel : Nat) (s : List (Option Char)) :
    List (Except Fault String × Draft) × Option Fault × Except Fault (List (Option Char)) :=
  match fuel with
  | 0 => ([], some .incomplete, .error .incomplete)
  | fuel + 1 =>
    match skipSpace s with
    | [] => ([], some .incomplete, .error .incomplete)
    | some '"' :: rest =>
      let (name, rest) := readText rest
      match rest.bind pastColon with
      | .error f => ([(name, broken f)], none, .error f)
      | .ok rest =>
        let (d, rest) := readValue fuel rest
        match rest with
        | .error f => ([(name, d)], none, .error f)
        | .ok rest =>
          match skipSpace rest with
          | [] => ([(name, d)], some .incomplete, .error .incomplete)
          | some '\x7d' :: rest => ([(name, d)], none, .ok rest)
          | some ',' :: rest =>
            let (members, fault, rest) := readMembers fuel rest
            ((name, d) :: members, fault, rest)
          | _ => ([(name, d)], some .malformed, .error .malformed)
    | _ => ([], some .malformed, .error .malformed)

end

/-- The draft of some bytes, and the fault in what comes after it. -/
def ofBytes (bytes : ByteArray) : Draft × Option Fault :=
  let s := Utf8.characters bytes
  let (d, rest) := readValue (2 * s.length + 2) s
  match rest with
  | .ok rest => (d, if (skipSpace rest).isEmpty then none else some .malformed)
  | .error f => (d, some f)

end Draft

end NameAdvisor.Json
