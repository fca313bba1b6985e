import NameAdvisor.Text.CaseTables

/-!
# Upper and lower case

Full case mappings of characters and texts, and comparison that ignores the case of ASCII letters.

## Main definitions

* `upperCase`, `lowerCase`: what a character becomes; some become several characters.
* `lowered`: a text in lower case, where a sigma that ends a word becomes `ς`.
* `capitalized`: a text with its first character in upper case.
* `isUpper`: the upper-case letters.
* `eqIgnoringAsciiCase`: equality up to the case of ASCII letters.
-/

namespace NameAdvisor.Text

/-- The code point that `runs` give for `n`, if one of them covers it. -/
def lookUpRun (runs : List LetterRun) (n : Nat) : Option Nat :=
  (runs.find? (·.covers n)).map fun r => (Int.ofNat n + r.shift).toNat

/-- `c` in the case that `runs` and `spellings` describe; a character that neither knows stays itself. -/
def mapCase (runs : List LetterRun) (spellings : List (Nat × List Nat)) (c : Char) : List Char :=
  match lookUpRun runs c.toNat with
  | some n => [Char.ofNat n]
  | none =>
    match spellings.lookup c.toNat with
    | some ns => ns.map Char.ofNat
    | none => [c]

def upperCase (c : Char) : List Char :=
  if c.toNat < 0x80 then [c.toUpper] else mapCase upperRuns upperSpellings c

/-- The lower case of `c`, wherever it stands. -/
def lowerCase (c : Char) : List Char :=
  if c.toNat < 0x80 then [c.toLower] else mapCase lowerRuns lowerSpellings c

def isUpper (c : Char) : Bool :=
  if c.toNat < 0x80 then c.isUpper else uppercaseRuns.any (·.covers c.toNat)

def inRanges (ranges : List (Nat × Nat)) (n : Nat) : Bool :=
  ranges.any fun r => r.1 ≤ n && n ≤ r.2

/-- The characters that have a case. -/
def isCased (c : Char) : Bool :=
  if c.toNat < 0x80 then c.isAlpha else inRanges casedRanges c.toNat

/-- The characters that do not end a word: marks, modifiers and the punctuation found inside words. -/
def isCaseIgnorable (c : Char) : Bool :=
  if c.toNat < 0x80 then c == '\'' || c == '.' || c == ':' || c == '^' || c.toNat == 0x60
  else inRanges caseIgnorableRanges c.toNat

/-- Whether the first character that is not ignorable has a case. -/
def startsCased (s : List Char) : Bool :=
  match s.dropWhile isCaseIgnorable with
  | c :: _ => isCased c
  | [] => false

def capitalSigma : Char := 'Σ'

/-- The lower case of the characters `s`, which follow `before` (nearest first).  A capital sigma becomes `ς`
where letters precede it and none follows, and `σ` elsewhere. -/
def loweredAfter (before : List Char) : List Char → List Char
  | [] => []
  | c :: rest =>
    let here := if c == capitalSigma then
        if startsCased before && !startsCased rest then ['ς'] else ['σ']
      else lowerCase c
    here ++ loweredAfter (c :: before) rest

/-- `s` in lower case. -/
def lowered (s : String) : String :=
  String.ofList (loweredAfter [] s.toList)

/-- The characters `s` with the first in upper case. -/
def capitalizedChars : List Char → List Char
  | [] => []
  | c :: rest => upperCase c ++ rest

/-- `s` with its first character in upper case and the rest as it stands. -/
def capitalized (s : String) : String :=
  String.ofList (capitalizedChars s.toList)

@[simp] theorem capitalized_empty : capitalized "" = "" := rfl

@[simp] theorem toList_capitalized (s : String) : (capitalized s).toList = capitalizedChars s.toList := by
  simp [capitalized]

/-- The lower-case ASCII letters of `s` in place of its upper-case ones. -/
def asciiLowered (s : String) : String :=
  String.ofList (s.toList.map Char.toLower)

def eqIgnoringAsciiCase (s t : String) : Bool :=
  s.toList.map Char.toLower == t.toList.map Char.toLower

end NameAdvisor.Text
