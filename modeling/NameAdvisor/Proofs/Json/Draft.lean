import NameAdvisor.Json.Draft
import NameAdvisor.Proofs.Json.Record
import Mathlib.Tactic.SplitIfs

/-!
# The drafts of texts that are JSON

Where a text is JSON, its draft is that of its value, and passing over a part of it goes as far as reading that part
does.

## Main definitions

* `Json.draft`: the draft of a value.
* `Json.Draft.Spells`: what the letters of a string spell.
* `Json.Draft.Follows`: what is read with some fuel has the draft of what is read.
-/

namespace NameAdvisor.Json

mutual

/-- The draft of a value, free of faults. -/
def draft : Json → Draft
  | .null => .null
  | .bool b => .bool b
  | .number n => .number (.ok n) none
  | .string s => .string (.ok s) none
  | .array items => .array (draftItems items) none
  | .object members => .object (draftMembers members) none

def draftItems : List Json → List Draft
  | [] => []
  | j :: rest => draft j :: draftItems rest

def draftMembers : List (String × Json) → List (Except Fault String × Draft)
  | [] => []
  | (k, j) :: rest => (.ok k, draft j) :: draftMembers rest

end

namespace Draft

/-! ## Words and white space -/

theorem skipSpace_map_some (s : List Char) : skipSpace (s.map some) = (Json.skipSpace s).map some :=
  List.dropWhile_map

theorem map_some_ne {c : Char} {s : List Char} (h : ∀ t, s ≠ c :: t) (t : List (Option Char)) :
    s.map some ≠ some c :: t := by
  cases s with
  | nil => simp
  | cons d s =>
    have hd : d ≠ c := fun he => h s (he ▸ rfl)
    simp [hd]

theorem readWord_map_some (value : Json) {word s rest : List Char} {j : Json}
    (h : Json.readWord word value s = .ok (j, rest)) :
    readWord word value.draft (s.map some) = (j.draft, .ok (rest.map some)) := by
  induction word generalizing s with
  | nil =>
    cases h
    rfl
  | cons w word ih =>
    cases s with
    | nil => cases h
    | cons c s =>
      rw [Json.readWord] at h
      split at h
      · next hw =>
        obtain rfl : w = c := by simpa using hw
        simpa [readWord] using ih h
      · cases h

/-! ## Numbers -/

section Numbers

variable {positive : Bool} {significand : Nat} {exponent : Int} {n : Number} {s rest : List Char}

theorem dropWhile_isDigit?_map_some (s : List Char) :
    (s.map some).dropWhile isDigit? = (s.dropWhile Char.isDigit).map some :=
  List.dropWhile_map

theorem pastDigits_map_some {c : Char} (hc : c.isDigit) (s : List Char) :
    pastDigits ((c :: s).map some) = .ok (((c :: s).dropWhile Char.isDigit).map some) := by
  simp [pastDigits, isDigit?, hc, ← dropWhile_isDigit?_map_some]

theorem dropSign_map_some (hplus : ∀ t, s ≠ '+' :: t) (hminus : ∀ t, s ≠ '-' :: t) :
    dropSign (s.map some) = s.map some := by
  cases s with
  | nil => rfl
  | cons c s =>
    unfold dropSign
    split <;> simp_all

theorem pastExponent_map_some (hlower : ∀ t, s ≠ 'e' :: t) (hupper : ∀ t, s ≠ 'E' :: t) :
    pastExponent (s.map some) = .ok (s.map some) := by
  cases s with
  | nil => rfl
  | cons c s =>
    unfold pastExponent
    split <;> simp_all

theorem pastFraction_map_some (hpoint : ∀ t, s ≠ '.' :: t) : pastFraction (s.map some) = pastExponent (s.map some) := by
  cases s with
  | nil => rfl
  | cons c s =>
    unfold pastFraction
    split <;> simp_all

theorem pastDigits_of_readMagnitude {up : Bool} (h : readMagnitude positive significand exponent up s = .ok (n, rest)) :
    pastDigits (s.map some) = .ok (rest.map some) := by
  unfold readMagnitude at h
  cases s with
  | nil => cases h
  | cons c s =>
    by_cases hc : c.isDigit
    case neg => simp [hc] at h
    simp only [hc, Bool.not_true, Bool.false_eq_true, if_false] at h
    rw [pastDigits_map_some hc]
    split at h
    · split at h
      · cases h
      · cases h
        rfl
    · obtain ⟨_, _, h⟩ := map_eq_ok_iff.mp h
      cases h
      rfl

theorem pastDigits_of_readExponent (h : readExponent positive significand exponent s = .ok (n, rest)) :
    pastDigits (dropSign (s.map some)) = .ok (rest.map some) := by
  unfold readExponent at h
  split at h
  · exact pastDigits_of_readMagnitude h
  · exact pastDigits_of_readMagnitude h
  · next hplus hminus =>
    rw [dropSign_map_some hplus hminus]
    exact pastDigits_of_readMagnitude h

theorem pastExponent_of_readScaled (h : readScaled positive significand exponent s = .ok (n, rest)) :
    pastExponent (s.map some) = .ok (rest.map some) := by
  unfold readScaled at h
  split at h
  · exact pastDigits_of_readExponent h
  · exact pastDigits_of_readExponent h
  · next hlower hupper =>
    obtain ⟨_, _, h⟩ := map_eq_ok_iff.mp h
    cases h
    exact pastExponent_map_some hlower hupper

theorem pastFraction_of_readFraction (h : readFraction positive significand exponent s = .ok (n, rest)) :
    (pastDigits (s.map some)).bind pastExponent = .ok (rest.map some) := by
  unfold readFraction at h
  cases s with
  | nil => cases h
  | cons c s =>
    by_cases hc : c.isDigit
    · simp only [hc, Bool.not_true, Bool.false_eq_true, if_false] at h
      rw [pastDigits_map_some hc]
      exact pastExponent_of_readScaled h
    · simp [hc] at h

/-- Passing over a number without its sign is passing over its digits, a fraction and an exponent; it starts with a zero
only if no digit follows. -/
theorem pastNumber_map_some {c : Char} (hc : c.isDigit) (hzero : ¬ (c == '0' && s.head?.any Char.isDigit)) :
    pastNumber ((c :: s).map some) = pastFraction (((c :: s).dropWhile Char.isDigit).map some) := by
  by_cases h0 : c = '0'
  · subst h0
    have hs : s.head?.any Char.isDigit = false := by simpa using hzero
    have hdrop : ('0' :: s).dropWhile Char.isDigit = s := by
      cases s with
      | nil => rfl
      | cons d s => simp_all
    rw [hdrop]
    cases s with
    | nil => rfl
    | cons d s => simp_all [pastNumber, isDigit?]
  · have hpast : pastNumber ((c :: s).map some) = (pastDigits ((c :: s).map some)).bind pastFraction := by
      unfold pastNumber
      split
      · simp_all
      · rfl
    rw [hpast, pastDigits_map_some hc]
    rfl

theorem pastNumber_of_readNumber (h : Json.readNumber positive s = .ok (n, rest)) :
    pastNumber (s.map some) = .ok (rest.map some) := by
  unfold Json.readNumber at h
  cases s with
  | nil => cases h
  | cons c s =>
    by_cases hc : c.isDigit
    case neg => simp [hc] at h
    simp only [hc, Bool.not_true, Bool.false_eq_true, if_false] at h
    split at h
    · cases h
    next hzero =>
    rw [pastNumber_map_some hc hzero]
    generalize (c :: s).dropWhile Char.isDigit = t at h ⊢
    split at h
    · exact pastFraction_of_readFraction h
    · exact pastDigits_of_readExponent h
    · exact pastDigits_of_readExponent h
    next hpoint hlower hupper =>
    rw [pastFraction_map_some hpoint]
    split at h
    · exact pastExponent_of_readScaled h
    · rw [pastExponent_map_some hlower hupper]
      split at h
      · cases h
        rfl
      · split at h <;> cases h <;> rfl

-- A number is read from its numeral as it is from the text.  The readers look no further than the first character that
-- cannot stand in a number, and what they do there depends only on its not being one that can.

theorem inNumber_of_isDigit {c : Char} (h : c.isDigit) : inNumber c := by
  simp [inNumber, h]

theorem numeral_cons {c : Char} (h : inNumber c) (s : List (Option Char)) : numeral (some c :: s) = c :: numeral s := by
  simp [numeral, h]

theorem numeral_cons_of_not {c : Char} (h : ¬ inNumber c) (s : List (Option Char)) : numeral (some c :: s) = [' '] := by
  simp [numeral, h]

theorem takeWhile_numeral (s : List Char) :
    (numeral (s.map some)).takeWhile Char.isDigit = s.takeWhile Char.isDigit := by
  induction s with
  | nil => rfl
  | cons c s ih =>
    by_cases hc : c.isDigit
    · simp [numeral_cons (inNumber_of_isDigit hc), hc, ih]
    · by_cases hin : inNumber c
      · simp [numeral_cons hin, hc]
      · simp [numeral_cons_of_not hin, hc]

theorem dropWhile_numeral (s : List Char) :
    (numeral (s.map some)).dropWhile Char.isDigit = numeral ((s.dropWhile Char.isDigit).map some) := by
  induction s with
  | nil => rfl
  | cons c s ih =>
    by_cases hc : c.isDigit
    · simp [numeral_cons (inNumber_of_isDigit hc), hc, ih]
    · by_cases hin : inNumber c
      · simp [numeral_cons hin, hc]
      · simp [numeral_cons_of_not hin, hc]

theorem any_head?_numeral (s : List Char) :
    (numeral (s.map some)).head?.any Char.isDigit = s.head?.any Char.isDigit := by
  cases s with
  | nil => rfl
  | cons c s =>
    by_cases hin : inNumber c
    · simp [numeral_cons hin]
    · have hc : c.isDigit = false := by simpa using mt inNumber_of_isDigit hin
      simp [numeral_cons_of_not hin, hc]

theorem numeral_ne {d : Char} (hd : d ≠ ' ') (h : ∀ t, s ≠ d :: t) (t : List Char) : numeral (s.map some) ≠ d :: t := by
  cases s with
  | nil => simp [numeral]
  | cons c s =>
    by_cases hin : inNumber c
    · have hc : c ≠ d := fun he => h s (he ▸ rfl)
      simp [numeral_cons hin, hc]
    · simp [numeral_cons_of_not hin, hd.symm]

theorem readMagnitude_numeral {up : Bool} (h : readMagnitude positive significand exponent up s = .ok (n, rest)) :
    readMagnitude positive significand exponent up (numeral (s.map some)) = .ok (n, numeral (rest.map some)) := by
  have htake := takeWhile_numeral s
  have hdrop := dropWhile_numeral s
  unfold readMagnitude at h ⊢
  cases s with
  | nil => cases h
  | cons c s =>
    by_cases hc : c.isDigit
    case neg => simp [hc] at h
    rw [List.map_cons, numeral_cons (inNumber_of_isDigit hc)] at htake hdrop ⊢
    simp only [hc, Bool.not_true, Bool.false_eq_true, if_false, htake, hdrop] at h ⊢
    split at h
    · next hsize =>
      rw [if_pos hsize]
      split at h
      · cases h
      · next hup =>
        rw [if_neg hup]
        cases h
        rfl
    · next hsize =>
      rw [if_neg hsize]
      obtain ⟨_, hx, h⟩ := map_eq_ok_iff.mp h
      cases h
      rw [hx]
      rfl

theorem readExponent_numeral (h : readExponent positive significand exponent s = .ok (n, rest)) :
    readExponent positive significand exponent (numeral (s.map some)) = .ok (n, numeral (rest.map some)) := by
  unfold readExponent at h
  split at h
  · exact readMagnitude_numeral h
  · exact readMagnitude_numeral h
  · next hplus hminus =>
    unfold readExponent
    split
    · next ht => exact absurd ht (numeral_ne (by decide) hplus _)
    · next ht => exact absurd ht (numeral_ne (by decide) hminus _)
    · exact readMagnitude_numeral h

theorem readScaled_numeral (h : readScaled positive significand exponent s = .ok (n, rest)) :
    readScaled positive significand exponent (numeral (s.map some)) = .ok (n, numeral (rest.map some)) := by
  unfold readScaled at h
  split at h
  · exact readExponent_numeral h
  · exact readExponent_numeral h
  · next hlower hupper =>
    obtain ⟨_, hx, h⟩ := map_eq_ok_iff.mp h
    cases h
    unfold readScaled
    split
    · next ht => exact absurd ht (numeral_ne (by decide) hlower _)
    · next ht => exact absurd ht (numeral_ne (by decide) hupper _)
    · rw [hx]
      rfl

theorem readFraction_numeral (h : readFraction positive significand exponent s = .ok (n, rest)) :
    readFraction positive significand exponent (numeral (s.map some)) = .ok (n, numeral (rest.map some)) := by
  have htake := takeWhile_numeral s
  have hdrop := dropWhile_numeral s
  unfold readFraction at h ⊢
  cases s with
  | nil => cases h
  | cons c s =>
    by_cases hc : c.isDigit
    case neg => simp [hc] at h
    rw [List.map_cons, numeral_cons (inNumber_of_isDigit hc)] at htake hdrop ⊢
    simp only [hc, Bool.not_true, Bool.false_eq_true, if_false, htake, hdrop] at h ⊢
    exact readScaled_numeral h

theorem readNumber_numeral (h : Json.readNumber positive s = .ok (n, rest)) :
    Json.readNumber positive (numeral (s.map some)) = .ok (n, numeral (rest.map some)) := by
  have htake := takeWhile_numeral s
  have hdrop := dropWhile_numeral s
  unfold Json.readNumber at h ⊢
  cases s with
  | nil => cases h
  | cons c s =>
    by_cases hc : c.isDigit
    case neg => simp [hc] at h
    rw [List.map_cons, numeral_cons (inNumber_of_isDigit hc)] at htake hdrop ⊢
    simp only [hc, Bool.not_true, Bool.false_eq_true, if_false, htake, hdrop, any_head?_numeral] at h ⊢
    split at h
    · cases h
    next hzero =>
    rw [if_neg hzero]
    generalize (c :: s).dropWhile Char.isDigit = t at h ⊢
    split at h
    · exact readFraction_numeral h
    · exact readExponent_numeral h
    · exact readExponent_numeral h
    next hpoint hlower hupper =>
    split
    · next ht => exact absurd ht (numeral_ne (by decide) hpoint _)
    · next ht => exact absurd ht (numeral_ne (by decide) hlower _)
    · next ht => exact absurd ht (numeral_ne (by decide) hupper _)
    split_ifs at h ⊢
    · exact readScaled_numeral h
    all_goals
      cases h
      rfl

theorem readNumber_map_some (h : Json.readNumber positive s = .ok (n, rest)) :
    readNumber positive (s.map some) = (number (.ok n) none, .ok (rest.map some)) := by
  simp [readNumber, readNumber_numeral h, pastNumber_of_readNumber h, stop?, Except.map]

end Numbers

/-! ## Strings -/

theorem exists_of_readFourHex {s rest : List Char} {n : Nat} (h : readFourHex s = .ok (n, rest)) :
    ∃ a b c d, s = a :: b :: c :: d :: rest ∧ unit? (some a) (some b) (some c) (some d) = some n := by
  unfold readFourHex at h
  split at h
  · cases h
  split at h
  · next i j k l hdigits =>
    cases h
    rcases s with _ | ⟨a, _ | ⟨b, _ | ⟨c, _ | ⟨d, s⟩⟩⟩⟩ <;> simp [Option.bind_eq_some_iff] at hdigits
    obtain ⟨ha, hb, hc, hd⟩ := hdigits
    exact ⟨a, b, c, d, rfl, by simp [unit?, ha, hb, hc, hd]⟩
  · cases h

/-- What the letters of a string spell, and what comes after it. -/
def Spells (s cs rest : List Char) : Prop :=
  ∃ ls, letters (s.map some) = (ls, .ok (rest.map some)) ∧ spell false none ls = .ok cs

theorem Spells.nil (rest : List Char) : Spells ('"' :: rest) [] rest :=
  ⟨[], by simp [letters], rfl⟩

theorem Spells.simple {e c : Char} {s cs rest : List Char} (he : simpleEscape? e = some c) (h : Spells s cs rest) :
    Spells ('\\' :: e :: s) (c :: cs) rest := by
  obtain ⟨ls, hls, hcs⟩ := h
  refine ⟨.plain (some c) :: ls, ?_, by simp [spell, hcs, Except.map]⟩
  have hu : e ≠ 'u' := by
    rintro rfl
    cases he
  simp [letters, hu, he, hls]

theorem Spells.plain {c : Char} {s cs rest : List Char} (hquote : c ≠ '"') (hslash : c ≠ '\\') (hc : ¬ c.toNat < 0x20)
    (h : Spells s cs rest) : Spells (c :: s) (c :: cs) rest := by
  obtain ⟨ls, hls, hcs⟩ := h
  refine ⟨.plain (some c) :: ls, ?_, by simp [spell, hcs, Except.map]⟩
  simp [letters, hquote, hslash, hc, hls]

theorem Spells.unicode {c : Char} {s s' cs rest : List Char} (hc : readUnicodeEscape s = .ok (c, s'))
    (h : Spells s' cs rest) : Spells ('\\' :: 'u' :: s) (c :: cs) rest := by
  obtain ⟨ls, hls, hcs⟩ := h
  unfold readUnicodeEscape at hc
  split at hc
  · cases hc
  next high t hfirst =>
  obtain ⟨_, _, _, _, rfl, hunit⟩ := exists_of_readFourHex hfirst
  split at hc
  · cases hc
  next hlow =>
  have hlow : isLow high = false := by simpa [isLow] using hlow
  split at hc
  · next hpair =>
    have hhigh : isHigh high = true := by simpa [isHigh] using hpair
    split at hc
    · cases hc
    · cases hc
    · split at hc
      · cases hc
      next low t hsecond =>
      obtain ⟨_, _, _, _, rfl, hunit'⟩ := exists_of_readFourHex hsecond
      split at hc
      · next hlow' =>
        have hlow' : isLow low = true := by simpa [isLow] using hlow'
        simp only [Except.ok.injEq, Prod.mk.injEq] at hc
        obtain ⟨rfl, rfl⟩ := hc
        exact ⟨.unit high :: .unit low :: ls, by simp [letters, hunit, hunit', hls],
          by simp [spell, hlow, hhigh, hlow', hcs, Except.map]⟩
      · cases hc
    · cases hc
  · next hplain =>
    have hhigh : isHigh high = false := by simpa [isHigh] using hplain
    cases hc
    refine ⟨.unit high :: ls, by simp [letters, hunit, hls], ?_⟩
    rw [spell.eq_def]
    simp [hlow, hhigh, hcs, Except.map]

theorem spells_readString {fuel : Nat} {acc s rest : List Char} {t : String}
    (h : readString fuel acc s = .ok (t, rest)) : ∃ cs, t = String.ofList (acc.reverse ++ cs) ∧ Spells s cs rest := by
  induction fuel generalizing acc s with
  | zero => cases h
  | succ fuel ih =>
    unfold readString at h
    split at h
    · cases h
    · cases h
      exact ⟨[], by simp, .nil rest⟩
    · split at h
      · cases h
      · split at h
        · next c s' hu =>
          obtain ⟨cs, rfl, hcs⟩ := ih h
          exact ⟨c :: cs, by simp, .unicode hu hcs⟩
        · cases h
      · split at h
        · next c hc =>
          obtain ⟨cs, rfl, hcs⟩ := ih h
          exact ⟨c :: cs, by simp, .simple hc hcs⟩
        · cases h
    · next c s' hquote hslash =>
      split at h
      · cases h
      · next hc =>
        obtain ⟨cs, rfl, hcs⟩ := ih h
        exact ⟨c :: cs, by simp, .plain hquote hslash hc hcs⟩

theorem readText_map_some {fuel : Nat} {s rest : List Char} {t : String} (h : readString fuel [] s = .ok (t, rest)) :
    readText (s.map some) = (.ok t, .ok (rest.map some)) := by
  obtain ⟨cs, rfl, ls, hls, hcs⟩ := spells_readString h
  simp [readText, hls, stop?, hcs, Except.map]

/-! ## Values -/

/-- Whatever is read with this fuel has the draft of what is read, and the same comes after it. -/
structure Follows (fuel : Nat) : Prop where
  value : ∀ {depth s j rest}, Json.readValue fuel depth s = .ok (j, rest) →
    readValue fuel (s.map some) = (j.draft, .ok (rest.map some))
  items : ∀ {depth s js rest}, Json.readItems fuel depth s = .ok (js, rest) →
    readItems fuel (s.map some) = (draftItems js, none, .ok (rest.map some))
  members : ∀ {depth s ms rest}, Json.readMembers fuel depth s = .ok (ms, rest) →
    readMembers fuel (s.map some) = (draftMembers ms, none, .ok (rest.map some))

section Follows

variable {fuel : Nat} (h : Follows fuel) {depth : Nat} {s rest : List Char}
include h

theorem Follows.value_succ {j : Json} (hread : Json.readValue (fuel + 1) depth s = .ok (j, rest)) :
    readValue (fuel + 1) (s.map some) = (j.draft, .ok (rest.map some)) := by
  unfold Json.readValue at hread
  unfold readValue
  rw [skipSpace_map_some]
  generalize Json.skipSpace s = t at hread ⊢
  split at hread
  · cases hread
  · exact readWord_map_some .null hread
  · exact readWord_map_some (.bool true) hread
  · exact readWord_map_some (.bool false) hread
  · obtain ⟨_, htext, hj⟩ := map_eq_ok_iff.mp hread
    cases hj
    simp [readText_map_some htext, stop?, draft]
  · obtain ⟨_, hnumber, hj⟩ := map_eq_ok_iff.mp hread
    cases hj
    simp [readNumber_map_some hnumber, draft]
  · next t =>
    simp only [List.map_cons, skipSpace_map_some]
    split at hread
    · cases hread
    · cases hread
    · split at hread
      · next t hclose =>
        cases hread
        simp [hclose, draft, draftItems]
      · next hclose =>
        obtain ⟨_, hitems, hj⟩ := map_eq_ok_iff.mp hread
        cases hj
        split
        · next ht => exact absurd ht (map_some_ne hclose _)
        · simp [h.items hitems, draft]
  · next t =>
    simp only [List.map_cons, skipSpace_map_some]
    split at hread
    · cases hread
    · cases hread
    · split at hread
      · next t hclose =>
        cases hread
        simp [hclose, draft, draftMembers]
      · next hclose =>
        obtain ⟨_, hmembers, hj⟩ := map_eq_ok_iff.mp hread
        cases hj
        split
        · next ht => exact absurd ht (map_some_ne hclose _)
        · simp [h.members hmembers, draft]
  · next c t hn ht hf hq hm ho hb =>
    split at hread
    · next hc =>
      obtain ⟨_, hnumber, hj⟩ := map_eq_ok_iff.mp hread
      cases hj
      have hnumber := readNumber_map_some hnumber
      rw [List.map_cons] at hnumber ⊢
      simp_all [isDigit?, draft]
    · cases hread

theorem Follows.items_succ {js : List Json} (hread : Json.readItems (fuel + 1) depth s = .ok (js, rest)) :
    readItems (fuel + 1) (s.map some) = (draftItems js, none, .ok (rest.map some)) := by
  unfold Json.readItems at hread
  unfold readItems
  split at hread
  · cases hread
  next j t hj =>
  simp only [h.value hj, skipSpace_map_some]
  split at hread
  · cases hread
  · next t hclose =>
    cases hread
    simp [hclose, draftItems]
  · next t hcomma =>
    obtain ⟨_, hitems, hjs⟩ := map_eq_ok_iff.mp hread
    cases hjs
    simp [hcomma, h.items hitems, draftItems]
  · cases hread

theorem Follows.members_succ {ms : List (String × Json)}
    (hread : Json.readMembers (fuel + 1) depth s = .ok (ms, rest)) :
    readMembers (fuel + 1) (s.map some) = (draftMembers ms, none, .ok (rest.map some)) := by
  unfold Json.readMembers at hread
  unfold readMembers
  rw [skipSpace_map_some]
  generalize Json.skipSpace s = t at hread ⊢
  split at hread
  · cases hread
  · split at hread
    · cases hread
    next key t htext =>
    split at hread
    · cases hread
    · next hcolon =>
      split at hread
      · cases hread
      next j t hj =>
      split at hread
      · cases hread
      · next t hclose =>
        cases hread
        simp [readText_map_some htext, pastColon, skipSpace_map_some, hcolon, Except.bind, h.value hj, hclose,
          draftMembers]
      · next t hcomma =>
        obtain ⟨_, hmembers, hms⟩ := map_eq_ok_iff.mp hread
        cases hms
        simp [readText_map_some htext, pastColon, skipSpace_map_some, hcolon, Except.bind, h.value hj, hcomma,
          h.members hmembers, draftMembers]
      · cases hread
    · cases hread
  · cases hread

end Follows

theorem follows : ∀ fuel, Follows fuel
  | 0 => ⟨nofun, nofun, nofun⟩
  | fuel + 1 => ⟨(follows fuel).value_succ, (follows fuel).items_succ, (follows fuel).members_succ⟩

/-- The draft of a text that is JSON is that of its value, and nothing comes after it. -/
theorem ofBytes_encode {s : String} {j : Json} (h : parse s = .ok j) : ofBytes (Utf8.encode s) = (j.draft, none) := by
  unfold parse at h
  split at h
  · cases h
  next j' rest hread =>
  split at h
  · next hend =>
    cases h
    have hdraft := (follows _).value hread
    simp [ofBytes, hdraft, skipSpace_map_some, hend]
  · cases h

end Draft

end NameAdvisor.Json
