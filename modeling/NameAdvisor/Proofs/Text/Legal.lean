import NameAdvisor.Text.Words
import NameAdvisor.Text.Case
import Mathlib.Data.List.Basic

/-!
# The grammar of names

Names are the texts `[A-Za-z_$][A-Za-z0-9_$]*`.  Taking words out of a name and changing its case leaves texts that
fit into names; these are names again unless they are empty or start with a digit.

## Main definitions

* `Legal`: the names.
* `Fits`: the texts that can go on a name.
-/

namespace NameAdvisor

/-- The characters that a name may start with. -/
def startsName (c : Char) : Bool :=
  c.isAlpha || c == '_' || c == '$'

/-- The characters that may follow in a name. -/
def fitsName (c : Char) : Bool :=
  c.isAlphanum || c == '_' || c == '$'

/-- Texts that can go on a name. -/
def Fits (s : List Char) : Prop :=
  ∀ c ∈ s, fitsName c = true

-- by name: the library also decides statements about all characters, by trying each there is
instance (s : List Char) : Decidable (Fits s) :=
  List.decidableBAll _ s

/-- Texts that are names. -/
structure Legal (s : List Char) : Prop where
  starts : s.head?.any startsName = true
  fits : Fits s

theorem legal_cons_iff {c : Char} {s : List Char} : Legal (c :: s) ↔ startsName c = true ∧ Fits (c :: s) :=
  ⟨fun h => ⟨h.starts, h.fits⟩, fun h => ⟨h.1, h.2⟩⟩

theorem Legal.exists_cons {s : List Char} (h : Legal s) : ∃ c t, s = c :: t ∧ startsName c = true ∧ Fits t := by
  cases s with
  | nil => exact absurd h.starts (by simp)
  | cons c t => exact ⟨c, t, rfl, h.starts, (List.forall_mem_cons.mp h.fits).2⟩

instance (s : List Char) : Decidable (Legal s) :=
  decidable_of_iff (s.head?.any startsName = true ∧ Fits s) ⟨fun h => ⟨h.1, h.2⟩, fun h => ⟨h.starts, h.fits⟩⟩

/-! ## Characters of names -/

theorem le_z_of_fitsName {c : Char} (h : fitsName c = true) : c ≤ 'z' := by
  simp only [fitsName, Char.isAlphanum, Bool.or_eq_true, beq_iff_eq] at h
  obtain ((halpha | hdigit) | rfl) | rfl := h
  · obtain hupper | hlower : c.isUpper = true ∨ c.isLower = true := by rwa [← Bool.or_eq_true]
    · have hZ : 'A' ≤ c ∧ c ≤ 'Z' := of_decide_eq_true hupper
      exact Char.le_trans hZ.2 (by decide)
    · obtain ⟨-, hz⟩ := Bool.and_eq_true_iff.mp (show (_ && _) = true from hlower)
      exact of_decide_eq_true hz
  · obtain ⟨-, h9⟩ := Bool.and_eq_true_iff.mp (show (_ && _) = true from hdigit)
    exact Char.le_trans (of_decide_eq_true h9) (by decide)
  · decide
  · decide

theorem toNat_lt_of_fitsName {c : Char} (h : fitsName c = true) : c.toNat < 128 := by
  have hz : c.toNat ≤ 'z'.toNat := le_z_of_fitsName h
  exact Nat.lt_of_le_of_lt hz (by decide)

/-- What holds of the characters of names among the first 128 holds of all of them. -/
theorem forall_fitsName {P : Char → Prop}
    (h : ∀ n < 128, fitsName (Char.ofNat n) = true → P (Char.ofNat n)) {c : Char} (hc : fitsName c = true) : P c := by
  have he : Char.ofNat c.toNat = c := Char.ofNat_toNat c
  rw [← he]
  exact h c.toNat (toNat_lt_of_fitsName hc) (by rwa [he])

theorem fitsName_of_startsName {c : Char} (h : startsName c = true) : fitsName c = true := by
  simp only [startsName, fitsName, Char.isAlphanum, Bool.or_eq_true] at h ⊢
  tauto

theorem startsName_iff {c : Char} (h : fitsName c = true) : startsName c = true ↔ c.isDigit = false :=
  forall_fitsName (P := fun c => startsName c = true ↔ c.isDigit = false) (by decide) h

theorem fitsName_toLower {c : Char} (h : fitsName c = true) : fitsName c.toLower = true :=
  forall_fitsName (P := fun c => fitsName c.toLower = true) (by decide) h

theorem startsName_toLower {c : Char} (h : fitsName c = true) : startsName c.toLower = startsName c :=
  forall_fitsName (P := fun c => startsName c.toLower = startsName c) (by decide) h

theorem fitsName_toUpper {c : Char} (h : fitsName c = true) : fitsName c.toUpper = true :=
  forall_fitsName (P := fun c => fitsName c.toUpper = true) (by decide) h

theorem startsName_toUpper {c : Char} (h : fitsName c = true) : startsName c.toUpper = startsName c :=
  forall_fitsName (P := fun c => startsName c.toUpper = startsName c) (by decide) h

/-! ## Texts -/

theorem fits_append_iff {s t : List Char} : Fits (s ++ t) ↔ Fits s ∧ Fits t :=
  List.forall_mem_append

theorem fits_cons_iff {c : Char} {s : List Char} : Fits (c :: s) ↔ fitsName c = true ∧ Fits s :=
  List.forall_mem_cons

theorem Legal.append {s t : List Char} (hs : Legal s) (ht : Fits t) : Legal (s ++ t) := by
  obtain ⟨c, s, rfl, hc, -⟩ := hs.exists_cons
  exact ⟨hc, fits_append_iff.mpr ⟨hs.fits, ht⟩⟩

theorem Fits.of_suffix {s t : List Char} (h : Fits s) (ht : t <:+ s) : Fits t :=
  fun c hc => h c (ht.mem hc)

/-- A text that fits is a name unless it is empty or starts with a digit. -/
theorem Fits.legal_iff {s : List Char} (h : Fits s) (hne : s ≠ []) : Legal s ↔ s.head?.any Char.isDigit = false := by
  cases s with
  | nil => exact absurd rfl hne
  | cons c s =>
    obtain ⟨hc, hs⟩ := fits_cons_iff.mp h
    simp [legal_cons_iff, startsName_iff hc, h]

/-! ## Words in texts -/

namespace Words

theorem suffix_of_afterWord? {word s rest : List Char} (h : afterWord? word s = some rest) : rest <:+ s := by
  fun_induction afterWord? word s with
  | case1 s => simp_all
  | case2 => cases h
  | case3 letter word c s _ ih => exact (ih h).trans (List.suffix_cons c s)
  | case4 => cases h

theorem suffix_of_afterAny? {words : List String} {s rest : List Char} (h : afterAny? words s = some rest) :
    rest <:+ s := by
  obtain ⟨word, -, hw⟩ := List.exists_of_findSome?_eq_some h
  exact suffix_of_afterWord? hw

theorem fits_replaceFirst {words : List String} {new s : List Char} (hn : Fits new) (hs : Fits s) :
    Fits (replaceFirst words new s) := by
  fun_induction replaceFirst words new s with
  | case1 rest h => exact fits_append_iff.mpr ⟨hn, hs.of_suffix (suffix_of_afterAny? h)⟩
  | case2 => exact hs
  | case3 c s rest h => exact fits_append_iff.mpr ⟨hn, hs.of_suffix (suffix_of_afterAny? h)⟩
  | case4 c s h ih =>
    obtain ⟨hc, hs⟩ := fits_cons_iff.mp hs
    exact fits_cons_iff.mpr ⟨hc, ih hs⟩

/-- A name stays one when another name takes the place of a word in it. -/
theorem legal_replaceFirst {words : List String} {new s : List Char} (hn : Legal new) (hs : Legal s) :
    Legal (replaceFirst words new s) := by
  obtain ⟨c, s, rfl, hc, ht⟩ := hs.exists_cons
  unfold replaceFirst
  split
  · next rest h => exact hn.append (hs.fits.of_suffix (suffix_of_afterAny? h))
  · exact ⟨hc, fits_cons_iff.mpr ⟨fitsName_of_startsName hc, fits_replaceFirst hn.fits ht⟩⟩

theorem fits_removeFrom {words : List String} {fuel : Nat} {s : List Char} (hs : Fits s) :
    Fits (removeFrom words fuel s) := by
  fun_induction removeFrom words fuel s with
  | case1 => exact hs
  | case2 => exact hs
  | case3 fuel c s rest h ih => exact ih (hs.of_suffix (suffix_of_afterAny? h))
  | case4 fuel c s h ih =>
    obtain ⟨hc, hs⟩ := fits_cons_iff.mp hs
    exact fits_cons_iff.mpr ⟨hc, ih hs⟩

end Words

/-! ## Case -/

namespace Text

theorem lowerCase_of_fitsName {c : Char} (h : fitsName c = true) : lowerCase c = [c.toLower] :=
  if_pos (toNat_lt_of_fitsName h)

theorem upperCase_of_fitsName {c : Char} (h : fitsName c = true) : upperCase c = [c.toUpper] :=
  if_pos (toNat_lt_of_fitsName h)

theorem loweredAfter_of_fits (before : List Char) {s : List Char} (h : Fits s) :
    loweredAfter before s = s.map Char.toLower := by
  induction s generalizing before with
  | nil => rfl
  | cons c s ih =>
    obtain ⟨hc, hs⟩ := fits_cons_iff.mp h
    have hsigma : (c == capitalSigma) = false := by
      rw [beq_eq_false_iff_ne]
      rintro rfl
      exact absurd hc (by decide)
    simp [loweredAfter, hsigma, lowerCase_of_fitsName hc, ih _ hs]

theorem fits_lowered {s : String} (h : Fits s.toList) : Fits (lowered s).toList := by
  intro c hc
  rw [lowered, String.toList_ofList, loweredAfter_of_fits [] h] at hc
  obtain ⟨d, hd, rfl⟩ := List.mem_map.mp hc
  exact fitsName_toLower (h d hd)

theorem legal_lowered_iff {s : String} (h : Fits s.toList) : Legal (lowered s).toList ↔ Legal s.toList := by
  have hl := fits_lowered h
  rw [lowered, String.toList_ofList, loweredAfter_of_fits [] h] at hl ⊢
  cases hs : s.toList with
  | nil => rfl
  | cons c t =>
    rw [hs] at h hl
    obtain ⟨hc, -⟩ := fits_cons_iff.mp h
    rw [List.map_cons] at hl ⊢
    rw [legal_cons_iff, legal_cons_iff, startsName_toLower hc]
    exact and_congr_right fun _ => iff_of_true hl h

theorem fits_capitalizedChars {s : List Char} (h : Fits s) : Fits (capitalizedChars s) := by
  cases s with
  | nil => exact h
  | cons c s =>
    obtain ⟨hc, hs⟩ := fits_cons_iff.mp h
    rw [capitalizedChars, upperCase_of_fitsName hc]
    exact fits_cons_iff.mpr ⟨fitsName_toUpper hc, hs⟩

theorem legal_capitalizedChars {s : List Char} (h : Legal s) : Legal (capitalizedChars s) := by
  have hf := fits_capitalizedChars h.fits
  obtain ⟨c, s, rfl, hc, -⟩ := h.exists_cons
  have hcf := fitsName_of_startsName hc
  rw [capitalizedChars, upperCase_of_fitsName hcf] at hf ⊢
  exact ⟨(startsName_toUpper hcf).trans hc, hf⟩

end Text

end NameAdvisor
