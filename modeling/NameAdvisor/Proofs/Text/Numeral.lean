import NameAdvisor.Text.Numeral
import Mathlib.Data.List.Induction
import Mathlib.Data.Nat.Digits.Defs

/-!
# What is read as a number

A reader of numerals takes the decimal digits of a number, after any number of zeros and perhaps a plus sign, and no
other text.  One that takes up the digits in words reads the same number if it is a word, and none otherwise: a product or
a sum that does not fit on the way is not made up for by later digits.

## Main definitions

* `Numeral.Writes`: texts that write a number.
* `Numeral.decimalValue`: the value of digits.
* `Numeral.Spells`: texts of an optional plus sign and digits.
-/

namespace NameAdvisor.Numeral

/-! ## Numbers of any size -/

/-- The text is the number in decimal digits, after any number of zeros and perhaps a plus sign. -/
def Writes (s : String) (n : Nat) : Prop :=
  ∃ sign zeros, (sign = [] ∨ sign = ['+']) ∧ s.toList = sign ++ (List.replicate zeros '0' ++ Nat.toDigits 10 n)

theorem digitChar_of_isDigit {c : Char} (h : c.isDigit) :
    c.toNat - '0'.toNat < 10 ∧ Nat.digitChar (c.toNat - '0'.toNat) = c := by
  have hall : ∀ n : Fin 58, 48 ≤ n.val → Nat.digitChar (n.val - 48) = Char.ofNat n.val := by decide
  obtain ⟨hge, hle⟩ : 48 ≤ c.val ∧ c.val ≤ 57 := by simpa [Char.isDigit] using h
  have hge : 48 ≤ c.toNat := UInt32.le_iff_toNat_le.mp hge
  have hle : c.toNat ≤ 57 := UInt32.le_iff_toNat_le.mp hle
  have hzero : '0'.toNat = 48 := rfl
  refine ⟨by omega, ?_⟩
  rw [hzero, hall ⟨c.toNat, by omega⟩ hge, Char.ofNat_toNat]

theorem ofDigitChars_zeros (zeros : Nat) (ds : List Char) :
    Nat.ofDigitChars 10 (List.replicate zeros '0' ++ ds) 0 = Nat.ofDigitChars 10 ds 0 := by
  induction zeros with
  | zero => rfl
  | succ zeros ih => simpa [List.replicate_succ, Nat.ofDigitChars_cons] using ih

/-- Digits are zeros and the decimal digits of their value. -/
theorem exists_zeros_of_digits {ds : List Char} (hne : ds ≠ []) (h : ∀ c ∈ ds, c.isDigit) :
    ∃ zeros, ds = List.replicate zeros '0' ++ Nat.toDigits 10 (Nat.ofDigitChars 10 ds 0) := by
  induction ds using List.reverseRecOn with
  | nil => exact absurd rfl hne
  | append_singleton ds d ih =>
    obtain ⟨hds, hd⟩ := List.forall_mem_append.mp h
    obtain ⟨hlt, hchar⟩ := digitChar_of_isDigit (hd d List.mem_cons_self)
    rw [Nat.ofDigitChars_append, Nat.ofDigitChars_cons, Nat.ofDigitChars_nil]
    -- a value that is not zero has the digits of the one before it and the last; zero has none to go on with
    generalize d.toNat - '0'.toNat = last at hlt hchar
    by_cases hzero : Nat.ofDigitChars 10 ds 0 = 0
    · have hlast : Nat.toDigits 10 last = [d] := by rw [Nat.toDigits_of_lt_base hlt, hchar]
      rw [hzero, Nat.mul_zero, Nat.zero_add, hlast]
      cases hnil : ds with
      | nil => exact ⟨0, rfl⟩
      | cons d' ds' =>
        obtain ⟨zeros, hz⟩ := ih (by simp [hnil]) hds
        rw [hzero] at hz
        exact ⟨zeros + 1, by rw [← hnil, hz, List.replicate_succ']; rfl⟩
    · have hne : ds ≠ [] := by
        rintro rfl
        exact hzero Nat.ofDigitChars_nil
      obtain ⟨zeros, hz⟩ := ih hne hds
      generalize Nat.ofDigitChars 10 ds 0 = v at hzero hz
      refine ⟨zeros, ?_⟩
      have hdiv : (10 * v + last) / 10 = v := by omega
      have hmod : (10 * v + last) % 10 = last := by omega
      rw [Nat.toDigits_of_base_le (by decide) (by omega), hdiv, hmod, hchar, hz, List.append_assoc]

theorem readDigits_eq_some_iff_value {ds : List Char} {n : Nat} :
    readDigits ds = some n ↔ ds ≠ [] ∧ (∀ c ∈ ds, c.isDigit) ∧ Nat.ofDigitChars 10 ds 0 = n := by
  unfold readDigits
  split <;> grind

theorem readDigits_eq_some_iff {ds : List Char} {n : Nat} :
    readDigits ds = some n ↔ ∃ zeros, ds = List.replicate zeros '0' ++ Nat.toDigits 10 n := by
  rw [readDigits_eq_some_iff_value]
  constructor
  · rintro ⟨hne, hall, rfl⟩
    exact exists_zeros_of_digits hne hall
  · rintro ⟨zeros, rfl⟩
    refine ⟨by simp [Nat.toDigits_ne_nil], ?_, ?_⟩
    · intro c hc
      obtain hc | hc := List.mem_append.mp hc
      · rw [List.eq_of_mem_replicate hc]
        decide
      · exact Nat.isDigit_of_mem_toDigits (by decide) (by decide) hc
    · rw [ofDigitChars_zeros, Nat.ofDigitChars_ten_toDigits]

theorem eq_dropPlus_or (cs : List Char) : cs = dropPlus cs ∨ cs = '+' :: dropPlus cs := by
  unfold dropPlus
  split
  · exact .inr rfl
  · exact .inl rfl

theorem dropPlus_of_isDigit {digits : List Char} (h : ∀ c ∈ digits, c.isDigit) : dropPlus digits = digits := by
  unfold dropPlus
  split
  · next rest => exact absurd (h '+' List.mem_cons_self) (by decide)
  · rfl

/-- What is read is what is written. -/
theorem read_eq_some_iff {s : String} {n : Nat} : read s = some n ↔ Writes s n := by
  rw [read, Writes]
  constructor
  · intro h
    obtain ⟨zeros, hz⟩ := readDigits_eq_some_iff.mp h
    obtain hs | hs := eq_dropPlus_or s.toList
    · exact ⟨[], zeros, .inl rfl, by rw [hs, hz]; rfl⟩
    · exact ⟨['+'], zeros, .inr rfl, by rw [hs, hz]; rfl⟩
  · rintro ⟨sign, zeros, rfl | rfl, hs⟩
    · have hread : readDigits (List.replicate zeros '0' ++ Nat.toDigits 10 n) = some n :=
        readDigits_eq_some_iff.mpr ⟨zeros, rfl⟩
      obtain ⟨-, hall, -⟩ := readDigits_eq_some_iff_value.mp hread
      rw [hs, List.nil_append, dropPlus_of_isDigit hall, hread]
    · rw [hs]
      exact readDigits_eq_some_iff.mpr ⟨zeros, rfl⟩

/-! ## Words -/

section Words

variable {limit m n : Nat}

/-- A digit is put behind a word if what the two come to is a word. -/
theorem appendDigit?_eq_some_iff {c : Char} :
    appendDigit? limit n c = some m ↔ c.isDigit ∧ 10 * n + (c.toNat - '0'.toNat) = m ∧ m < limit := by
  unfold appendDigit?
  split
  · next hc =>
    simp only [Option.bind_eq_some_iff, word?_eq_some_iff, hc, true_and]
    constructor
    · rintro ⟨_, ⟨rfl, -⟩, rfl, hlt⟩
      exact ⟨by omega, hlt⟩
    · -- the product is no larger than the sum, so that it fits where the sum does
      rintro ⟨rfl, hlt⟩
      exact ⟨n * 10, ⟨rfl, by omega⟩, by omega, hlt⟩
  · next hc => simp [hc]

/-- Digits are put behind a word one by one if what all of them come to is a word. -/
theorem foldlM_appendDigit?_eq_some_iff {digits : List Char} :
    digits.foldlM (appendDigit? limit) n = some m ↔
      (∀ c ∈ digits, c.isDigit) ∧ Nat.ofDigitChars 10 digits n = m ∧ (digits = [] ∨ m < limit) := by
  induction digits generalizing n with
  | nil => simp
  | cons c digits ih =>
    have hle := le_ofDigitChars digits (10 * n + (c.toNat - '0'.toNat))
    simp only [List.foldlM_cons, Option.bind_eq_bind, Option.bind_eq_some_iff, appendDigit?_eq_some_iff, ih,
      Nat.ofDigitChars_cons, List.forall_mem_cons, reduceCtorEq, false_or]
    constructor
    · rintro ⟨_, ⟨hc, rfl, hword⟩, hdigits, rfl, hlast⟩
      refine ⟨⟨hc, hdigits⟩, rfl, ?_⟩
      obtain rfl | hlt := hlast
      · exact hword
      · exact hlt
    · -- no number on the way is larger than the one at the end
      rintro ⟨⟨hc, hdigits⟩, rfl, hlt⟩
      exact ⟨_, ⟨hc, rfl, Nat.lt_of_le_of_lt hle hlt⟩, hdigits, rfl, .inr hlt⟩

/-- A text is read into a word exactly if the number that it writes is one. -/
theorem readBelow_eq (limit : Nat) (s : String) : readBelow limit s = (read s).filter (· < limit) := by
  ext n
  rw [Option.filter_eq_some_iff, read, readDigits_eq_some_iff_value, readBelow]
  split
  · next h => simp [h]
  · next hne =>
    have hne : dropPlus s.toList ≠ [] := hne
    simp [foldlM_appendDigit?_eq_some_iff, hne, and_assoc]

theorem readBelow_eq_some_iff {s : String} : readBelow limit s = some n ↔ Writes s n ∧ n < limit := by
  simp [readBelow_eq, Option.filter_eq_some_iff, read_eq_some_iff]

theorem readInRange_eq_some_iff {s : String} {low high : Nat} :
    readInRange s low high = some n ↔ read (Text.trim s) = some n ∧ n < wordLimit ∧ low ≤ n ∧ n ≤ high := by
  simp [readInRange, readBelow_eq, Option.filter_eq_some_iff]

end Words

/-- A number that was read in a range is written in the text, blanks aside, and lies in the range. -/
theorem writes_of_readInRange {s : String} {low high n : Nat} (h : readInRange s low high = some n) :
    Writes (Text.trim s) n ∧ low ≤ n ∧ n ≤ high := by
  obtain ⟨hread, -, hrange⟩ := readInRange_eq_some_iff.mp h
  exact ⟨read_eq_some_iff.mp hread, hrange⟩

/-! ## Values of digits -/

/-- The value of digits, of which the last one counts ones. -/
def decimalValue (digits : List Char) : Nat :=
  Nat.ofDigits 10 (digits.reverse.map fun c => c.toNat - '0'.toNat)

theorem ofDigitChars_eq_decimalValue (digits : List Char) : Nat.ofDigitChars 10 digits 0 = decimalValue digits := by
  induction digits using List.reverseRecOn with
  | nil => rfl
  | append_singleton digits d ih =>
    rw [Nat.ofDigitChars_append, Nat.ofDigitChars_cons, Nat.ofDigitChars_nil, ih, decimalValue, decimalValue,
      List.reverse_append, List.reverse_singleton, List.singleton_append, List.map_cons, Nat.ofDigits_cons, Nat.add_comm]

theorem decimalValue_zeros (zeros : Nat) (digits : List Char) :
    decimalValue (List.replicate zeros '0' ++ digits) = decimalValue digits := by
  simp only [← ofDigitChars_eq_decimalValue, ofDigitChars_zeros]

/-- The text is an optional plus sign and the digits, of which there is at least one. -/
structure Spells (s : String) (digits : List Char) : Prop where
  toList_eq : s.toList = digits ∨ s.toList = '+' :: digits
  ne_nil : digits ≠ []
  isDigit : ∀ c ∈ digits, c.isDigit

theorem spells_iff {s : String} {digits : List Char} :
    Spells s digits ↔ dropPlus s.toList = digits ∧ digits ≠ [] ∧ ∀ c ∈ digits, c.isDigit := by
  constructor
  · rintro ⟨hs | hs, hne, hall⟩
    · exact ⟨by rw [hs, dropPlus_of_isDigit hall], hne, hall⟩
    · exact ⟨by rw [hs]; rfl, hne, hall⟩
  · rintro ⟨rfl, hne, hall⟩
    exact ⟨eq_dropPlus_or s.toList, hne, hall⟩

/-- What is read is the value of the digits that are spelt. -/
theorem read_eq_some_iff_spells {s : String} {n : Nat} :
    read s = some n ↔ ∃ digits, Spells s digits ∧ decimalValue digits = n := by
  simp only [read, readDigits_eq_some_iff_value, spells_iff, ofDigitChars_eq_decimalValue]
  grind

/-- A number is read exactly if it is the value of the digits that the text spells between blanks, is a word of 64 bits
and lies in the range.  Zeros before other digits change nothing, and a value beyond the words is none in the range. -/
theorem readInRange_by_value (text : String) (low high : Nat) :
    (∀ n, readInRange text low high = some n ↔
      ∃ digits, Spells (Text.trim text) digits ∧ decimalValue digits = n ∧ n < 2 ^ 64 ∧ low ≤ n ∧ n ≤ high) ∧
    ∀ zeros digits, Spells (Text.trim text) (List.replicate zeros '0' ++ digits) →
      readInRange text low high =
        if decimalValue digits < 2 ^ 64 ∧ low ≤ decimalValue digits ∧ decimalValue digits ≤ high then
          some (decimalValue digits)
        else none := by
  have hlimit : wordLimit = 2 ^ 64 := rfl
  refine ⟨fun n => ?_, fun zeros digits h => ?_⟩
  · rw [readInRange_eq_some_iff, read_eq_some_iff_spells, hlimit]
    grind
  · have hread : read (Text.trim text) = some (decimalValue digits) :=
      read_eq_some_iff_spells.mpr ⟨_, h, decimalValue_zeros zeros digits⟩
    ext n
    rw [readInRange_eq_some_iff, hread, hlimit]
    grind

/-- The largest word is read with zeros before it, while a number that comes to 1500 only in words of 64 bits is not. -/
theorem readInRange_by_value_around_largest_word :
    let largest := "\u2003+00018446744073709551615\n"
    let wrapping := "18446744073709553116"
    Spells (Text.trim largest) (List.replicate 3 '0' ++ "18446744073709551615".toList) ∧
      readInRange largest 0 (2 ^ 64 - 1) = some (2 ^ 64 - 1) ∧
      Spells (Text.trim wrapping) wrapping.toList ∧ decimalValue wrapping.toList % 2 ^ 64 = 1500 ∧
      readInRange wrapping 1000 120000 = none := by
  intro largest wrapping
  have hlargest : Spells (Text.trim largest) (List.replicate 3 '0' ++ "18446744073709551615".toList) :=
    ⟨.inr (by decide +kernel), by decide +kernel, List.all_eq_true.mp (by decide +kernel)⟩
  have hwrapping : Spells (Text.trim wrapping) wrapping.toList :=
    ⟨.inl (by decide +kernel), by decide +kernel, List.all_eq_true.mp (by decide +kernel)⟩
  have hvalue : decimalValue "18446744073709551615".toList = 2 ^ 64 - 1 := by decide +kernel
  have hvalue' : decimalValue wrapping.toList = 2 ^ 64 + 1500 := by decide +kernel
  refine ⟨hlargest, ?_, hwrapping, by rw [hvalue']; rfl, ?_⟩
  · rw [(readInRange_by_value largest 0 (2 ^ 64 - 1)).2 3 _ hlargest, hvalue]
    rfl
  · rw [(readInRange_by_value wrapping 1000 120000).2 0 wrapping.toList hwrapping, hvalue']
    rfl

end NameAdvisor.Numeral
