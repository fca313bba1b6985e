import NameAdvisor.Json.Parser
import NameAdvisor.Json.Printer
import NameAdvisor.Text.Numeral

/-!
# Reading back strings and numbers

## Main definitions

* `Json.Number.IsWord`: the whole numbers that are read back as they were written.
* `Json.Closed`: texts that a number may stand before.
-/

namespace NameAdvisor.Json

/-! ## Strings -/

theorem hexDigit?_digitChar : ∀ n < 16, hexDigit? (Nat.digitChar n) = some n := by
  decide

theorem fourHex_of_lt : ∀ n < 32, fourHex n = ['0', '0', Nat.digitChar (n / 16), Nat.digitChar (n % 16)] := by
  decide

theorem readFourHex_of_digits {a b c d : Char} {i j k l : Nat} (ha : hexDigit? a = some i) (hb : hexDigit? b = some j)
    (hc : hexDigit? c = some k) (hd : hexDigit? d = some l) (rest : List Char) :
    readFourHex (a :: b :: c :: d :: rest) = .ok (((i * 16 + j) * 16 + k) * 16 + l, rest) := by
  have hcount : 4 ≤ byteCount [a, b, c, d] := by
    have h₁ := a.utf8Size_pos
    have h₂ := b.utf8Size_pos
    have h₃ := c.utf8Size_pos
    have h₄ := d.utf8Size_pos
    simp only [byteCount, List.foldl_cons, List.foldl_nil]
    omega
  simp [readFourHex, Nat.not_lt.mpr hcount, ha, hb, hc, hd]

theorem readUnicodeEscape_fourHex {n : Nat} (h : n < 32) (rest : List Char) :
    readUnicodeEscape (fourHex n ++ rest) = .ok (Char.ofNat n, rest) := by
  have hn : ((0 * 16 + 0) * 16 + n / 16) * 16 + n % 16 = n := by omega
  have hread : readFourHex ('0' :: '0' :: Nat.digitChar (n / 16) :: Nat.digitChar (n % 16) :: rest) = .ok (n, rest) := by
    have h' := readFourHex_of_digits (hexDigit?_digitChar 0 (by decide)) (hexDigit?_digitChar 0 (by decide))
      (hexDigit?_digitChar (n / 16) (by omega)) (hexDigit?_digitChar (n % 16) (by omega)) rest
    rw [hn] at h'
    exact h'
  have hlow : ¬ 0xDC00 ≤ n := by omega
  have hhigh : ¬ 0xD800 ≤ n := by omega
  rw [fourHex_of_lt n h]
  simp [readUnicodeEscape, hread, hlow, hhigh]

theorem readString_escapeChar (fuel : Nat) (acc : List Char) (c : Char) (rest : List Char) :
    readString (fuel + 1) acc (escapeChar c ++ rest) = readString fuel (c :: acc) rest := by
  have hc : Char.ofNat c.toNat = c := Char.ofNat_toNat c
  unfold escapeChar
  split
  · next hq =>
    obtain rfl : c = '"' := by simpa using hq
    simp [readString, simpleEscape?]
  split
  · next hq =>
    obtain rfl : c = '\\' := by simpa using hq
    simp [readString, simpleEscape?]
  split
  · next hlt =>
    -- the controls with an escape of their own, and the others
    split
    · next h => rw [← hc, h]; simp [readString, simpleEscape?]
    · next h => rw [← hc, h]; simp [readString, simpleEscape?]
    · next h => rw [← hc, h]; simp [readString, simpleEscape?]
    · next h => rw [← hc, h]; simp [readString, simpleEscape?]
    · next h => rw [← hc, h]; simp [readString, simpleEscape?]
    · have hu := readUnicodeEscape_fourHex hlt rest
      rw [hc] at hu
      simp [readString, hu]
  · next hq hb hge =>
    have hq' : c ≠ '"' := by simpa using hq
    have hb' : c ≠ '\\' := by simpa using hb
    rw [List.singleton_append, readString]
    · exact if_neg hge
    · exact hq'
    · exact fun h => hb' h

/-- A text that is written as a string is read back. -/
theorem readString_flatMap_escapeChar {fuel : Nat} {cs : List Char} (h : cs.length < fuel) (acc rest : List Char) :
    readString fuel acc (cs.flatMap escapeChar ++ '"' :: rest) = .ok (String.ofList (acc.reverse ++ cs), rest) := by
  induction cs generalizing fuel acc with
  | nil =>
    obtain ⟨fuel, rfl⟩ := Nat.exists_eq_add_of_lt h
    simp [readString]
  | cons c cs ih =>
    obtain ⟨fuel, rfl⟩ := Nat.exists_eq_add_of_lt h
    rw [List.flatMap_cons, List.append_assoc, readString_escapeChar, ih (by simp; omega)]
    simp

theorem escapeChar_ne_nil (c : Char) : escapeChar c ≠ [] := by
  unfold escapeChar
  split
  · simp
  split
  · simp
  split
  · split <;> simp
  · simp

theorem length_le_flatMap_escapeChar (cs : List Char) : cs.length ≤ (cs.flatMap escapeChar).length := by
  induction cs with
  | nil => simp
  | cons c cs ih =>
    have hc := List.length_pos_iff.mpr (escapeChar_ne_nil c)
    simp only [List.flatMap_cons, List.length_append, List.length_cons]
    omega

/-- A string is read back, with the fuel that its own characters are. -/
theorem exists_stringChars_eq (s : String) (rest : List Char) : ∃ tail, stringChars s ++ rest = '"' :: tail ∧
    readString (tail.length + 1) [] tail = .ok (s, rest) := by
  refine ⟨s.toList.flatMap escapeChar ++ '"' :: rest, by simp [stringChars], ?_⟩
  have hle := length_le_flatMap_escapeChar s.toList
  have hlen : s.toList.length < (s.toList.flatMap escapeChar ++ '"' :: rest).length + 1 := by
    simp only [List.length_append]
    omega
  simpa using readString_flatMap_escapeChar hlen [] rest

/-! ## Numbers -/

/-- The number is read back as it was written: it is whole, and fits a word. -/
def Number.IsWord : Number → Prop
  | .natural n => n < wordLimit
  | .negative n => n < Nat.pow 2 63
  | .double _ => False

/-- A number that stands before the text ends there. -/
def Closed (s : List Char) : Prop :=
  ∀ c ∈ s.head?, c.isDigit = false ∧ c ≠ '.' ∧ c ≠ 'e' ∧ c ≠ 'E'

theorem span_of_closed {ds : List Char} (h : ∀ c ∈ ds, c.isDigit) {rest : List Char} (hr : Closed rest) :
    (ds ++ rest).takeWhile Char.isDigit = ds ∧ (ds ++ rest).dropWhile Char.isDigit = rest := by
  induction ds with
  | nil =>
    cases rest with
    | nil => simp
    | cons c rest => simp [(hr c rfl).1]
  | cons d ds ih =>
    obtain ⟨hd, hds⟩ := List.forall_mem_cons.mp h
    simp [hd, ih hds]

/-- All digits are taken up as long as what they come to is a word. -/
theorem takeDigits_eq {ds : List Char} {significand : Nat} (h : Nat.ofDigitChars 10 ds significand < wordLimit)
    (taken : Nat) :
    takeDigits significand taken ds = (Nat.ofDigitChars 10 ds significand, taken + ds.length, []) := by
  induction ds generalizing significand taken with
  | nil => simp [takeDigits]
  | cons d ds ih =>
    have he : significand * 10 + digitValue d = 10 * significand + (d.toNat - '0'.toNat) := by
      rw [Nat.mul_comm, digitValue]
    rw [Nat.ofDigitChars_cons, ← he] at h
    have hlt : significand * 10 + digitValue d < wordLimit := Nat.lt_of_le_of_lt (Numeral.le_ofDigitChars ds _) h
    rw [takeDigits, if_pos hlt, ih h, Nat.ofDigitChars_cons, ← he, List.length_cons, Nat.add_assoc, Nat.add_comm 1]

/-- A numeral starts with a zero only if it is one. -/
theorem head?_toDigits_ne_zero {n : Nat} (h : 0 < n) : (Nat.toDigits 10 n).head? ≠ some '0' := by
  induction n using Nat.strongRecOn with
  | ind n ih =>
    by_cases hn : n < 10
    · have hall : ∀ m < 10, 0 < m → (Nat.toDigits 10 m).head? ≠ some '0' := by decide
      exact hall n hn h
    · have hih := ih (n / 10) (by omega) (by omega)
      rw [Nat.toDigits_of_base_le (by decide) (by omega)]
      cases hd : Nat.toDigits 10 (n / 10) with
      | nil => exact absurd hd Nat.toDigits_ne_nil
      | cons d ds => simpa [hd] using hih

/-- The digits of a word are read as that word, with the sign before them. -/
theorem readNumber_toDigits {n : Nat} (h : n < wordLimit) (positive : Bool) {rest : List Char} (hr : Closed rest) :
    readNumber positive (Nat.toDigits 10 n ++ rest) =
      if positive then .ok (.natural n, rest)
      else if n == 0 || Nat.pow 2 63 < n then .ok (.double (.ofFloat (-(Float.ofNat n))), rest)
      else .ok (.negative (n - 1), rest) := by
  have hdigits : ∀ c ∈ Nat.toDigits 10 n, c.isDigit := fun c => Nat.isDigit_of_mem_toDigits (by decide) (by decide)
  obtain ⟨htake, hdrop⟩ := span_of_closed hdigits hr
  have hvalue : takeDigits 0 0 (Nat.toDigits 10 n) = (n, 0 + (Nat.toDigits 10 n).length, []) := by
    have hlt : Nat.ofDigitChars 10 (Nat.toDigits 10 n) 0 < wordLimit := by simpa using h
    simpa using takeDigits_eq hlt 0
  have hzero : 0 < n → (Nat.toDigits 10 n).head? ≠ some '0' := head?_toDigits_ne_zero
  cases hds : Nat.toDigits 10 n with
  | nil => exact absurd hds Nat.toDigits_ne_nil
  | cons d ds =>
    rw [hds] at hdigits htake hdrop hvalue hzero
    have hd : d.isDigit := hdigits d List.mem_cons_self
    have hlead : (d == '0' && (ds ++ rest).head?.any Char.isDigit) = false := by
      by_cases h0 : d = '0'
      · obtain rfl : n = 0 := Nat.eq_zero_of_not_pos fun hn => hzero hn (by simp [h0])
        obtain ⟨-, rfl⟩ : d = '0' ∧ ds = [] := by simpa using hds.symm
        cases rest with
        | nil => simp
        | cons c rest => simp [(hr c rfl).1]
      · simp [h0]
    rw [List.cons_append] at htake hdrop ⊢
    simp only [readNumber, hd, hlead, htake, hdrop, hvalue, Bool.not_true, Bool.false_eq_true, if_false,
      List.isEmpty_nil]
    split
    · exact absurd rfl (hr _ rfl).2.1
    · exact absurd rfl (hr _ rfl).2.2.1
    · exact absurd rfl (hr _ rfl).2.2.2
    · rfl

theorem readScaled_of_closed (positive : Bool) (significand : Nat) (exponent : Int) {rest : List Char}
    (hr : Closed rest) :
    readScaled positive significand exponent rest = (doubleOf positive significand exponent).map (·, rest) := by
  unfold readScaled
  split
  · exact absurd rfl (hr _ rfl).2.2.1
  · exact absurd rfl (hr _ rfl).2.2.2
  · rfl

theorem digitValue_lt {c : Char} (h : c.isDigit) : digitValue c < 10 := by
  obtain ⟨-, hle⟩ : 48 ≤ c.val ∧ c.val ≤ 57 := by simpa [Char.isDigit] using h
  have hn : c.toNat ≤ 57 := UInt32.le_iff_toNat_le.mp hle
  have hzero : '0'.toNat = 48 := rfl
  rw [digitValue]
  omega

/-- A digit, a point and a digit write a number of tenths. -/
theorem readNumber_tenths {d f : Char} (hd : d.isDigit) (hf : f.isDigit) {rest : List Char} (hr : Closed rest) :
    readNumber true (d :: '.' :: f :: rest) =
      (doubleOf true (digitValue d * 10 + digitValue f) (-1)).map (·, rest) := by
  have hpoint : '.'.isDigit = false := by decide
  have hlimit : 100 < wordLimit := by decide
  have hd' := digitValue_lt hd
  have hf' := digitValue_lt hf
  obtain ⟨htake, hdrop⟩ := span_of_closed (List.forall_mem_singleton.mpr hf) hr
  rw [List.singleton_append] at htake hdrop
  have hwhole : takeDigits 0 0 [d] = (digitValue d, 1, []) := by
    rw [takeDigits, if_pos (by omega), takeDigits, Nat.zero_mul, Nat.zero_add]
  have htenths : takeDigits (digitValue d) 0 [f] = (digitValue d * 10 + digitValue f, 1, []) := by
    rw [takeDigits, if_pos (by omega), takeDigits]
  have hfraction : readFraction true (digitValue d) 0 (f :: rest) =
      readScaled true (digitValue d * 10 + digitValue f) (-1) rest := by
    simp only [readFraction, hf, htake, hdrop, htenths, Bool.not_true, Bool.false_eq_true, if_false]
    rfl
  rw [← readScaled_of_closed _ _ _ hr, ← hfraction]
  simp [readNumber, hd, hpoint, hwhole]

/-- A whole number that fits a word is read back. -/
theorem readNumber_text {n : Number} (h : n.IsWord) {rest : List Char} (hr : Closed rest) :
    ∃ c cs, n.text.toList = c :: cs ∧
      (c.isDigit ∧ readNumber true (c :: cs ++ rest) = .ok (n, rest) ∨
        c = '-' ∧ readNumber false (cs ++ rest) = .ok (n, rest)) := by
  cases n with
  | natural n =>
    have hread := readNumber_toDigits h true hr
    have htext : (Number.natural n).text.toList = Nat.toDigits 10 n := by simp [Number.text]
    have hdigits : ∀ c ∈ Nat.toDigits 10 n, c.isDigit := fun c => Nat.isDigit_of_mem_toDigits (by decide) (by decide)
    rw [htext]
    cases hds : Nat.toDigits 10 n with
    | nil => exact absurd hds Nat.toDigits_ne_nil
    | cons d ds =>
      rw [hds] at hread hdigits
      exact ⟨d, ds, rfl, .inl ⟨hdigits d List.mem_cons_self, hread⟩⟩
  | negative n =>
    have hn : n < 2 ^ 63 := h
    have hw : n + 1 < wordLimit := by
      have hl : wordLimit = 2 ^ 64 := rfl
      omega
    have hread := readNumber_toDigits hw false hr
    have hsmall : ¬ 9223372036854775808 < n + 1 := by omega
    refine ⟨'-', Nat.toDigits 10 (n + 1), by simp [Number.text], .inr ⟨rfl, ?_⟩⟩
    simpa [hsmall] using hread
  | double x => cases h

end NameAdvisor.Json
