import NameAdvisor.Text.Blank

/-!
# Unsigned decimal numerals

How a text is read as a number of limited size.

## Main definitions

* `Numeral.read`: the value of an optional plus sign and one or more ASCII digits, however large it is.
* `Numeral.readBelow`: the same in words, which give up where a product or a sum does not fit.
* `Numeral.readInRange`: a blank-padded numeral whose value lies between two bounds.
-/

namespace NameAdvisor.Numeral

/-- The value of one or more ASCII digits. -/
def readDigits (s : List Char) : Option Nat :=
  if s.isEmpty || !s.all Char.isDigit then none else some (Nat.ofDigitChars 10 s 0)

def dropPlus : List Char → List Char
  | '+' :: rest => rest
  | s => s

/-- Further digits do not make a number smaller. -/
theorem le_ofDigitChars (ds : List Char) (start : Nat) : start ≤ Nat.ofDigitChars 10 ds start := by
  induction ds generalizing start with
  | nil => simp
  | cons d ds ih =>
    rw [Nat.ofDigitChars_cons]
    exact Nat.le_trans (by omega) (ih _)

/-- The value of an optional plus sign and one or more ASCII digits; nothing for any other text. -/
def read (s : String) : Option Nat :=
  readDigits (dropPlus s.toList)

/-- The number `n` if it is a word, of which there are `limit`. -/
def word? (limit n : Nat) : Option Nat :=
  if n < limit then some n else none

theorem word?_eq_some_iff {limit n m : Nat} : word? limit n = some m ↔ n = m ∧ m < limit := by
  unfold word?
  split <;> grind

/-- The word `n` with the digit `c` behind it.  There is none if `c` is no digit, if ten times `n` is no word, or if the
digit does not fit in any more. -/
def appendDigit? (limit n : Nat) (c : Char) : Option Nat :=
  if c.isDigit then (word? limit (n * 10)).bind fun tens => word? limit (tens + (c.toNat - '0'.toNat)) else none

/-- The word that `s` writes with an optional plus sign and one or more ASCII digits, taken up one by one. -/
def readBelow (limit : Nat) (s : String) : Option Nat :=
  match dropPlus s.toList with
  | [] => none
  | digits => digits.foldlM (appendDigit? limit) 0

/-- The number of values of a 64-bit word. -/
def wordLimit : Nat := Nat.pow 2 64

/-- The value of the numeral `s`, blanks around it ignored, when it is a 64-bit word between `low` and `high`. -/
def readInRange (s : String) (low high : Nat) : Option Nat :=
  (readBelow wordLimit (Text.trim s)).filter fun n => low ≤ n && n ≤ high

end NameAdvisor.Numeral
