import NameAdvisor.Text.Case
import Mathlib.Data.List.Basic

/-!
# Upper-case letters

A letter that is upper case already is its own upper case: the tables of letters that have another upper case and
the table of the upper-case letters have no letter in common.

## Main definitions

* `Text.LetterRun.isApart`: runs of letters that visibly have none in common.
-/

namespace NameAdvisor.Text

namespace LetterRun

/-- Whether two runs have no letter in common, as their ends and their steps tell.  Where they overlap, one of them is
a single letter that the other leaves out, or both take every second letter, by turns. -/
def isApart (r s : LetterRun) : Bool :=
  bif Nat.ble s.first r.last then
    bif Nat.ble r.first s.last then
      (r.first == r.last && !s.covers r.first) || (s.first == s.last && !r.covers s.first) ||
        (r.step == 2 && s.step == 2 && r.first % 2 != s.first % 2)
    else true
  else true

theorem covers_iff {r : LetterRun} {n : Nat} :
    r.covers n = true ↔ r.first ≤ n ∧ n ≤ r.last ∧ (n - r.first) % r.step = 0 := by
  simp [covers, and_assoc]

theorem covers_eq_false_of_isApart {r s : LetterRun} (h : r.isApart s = true) {n : Nat} (hs : s.covers n = true) :
    r.covers n = false := by
  rw [← Bool.not_eq_true]
  intro hr
  obtain ⟨hr₁, hr₂, hr₃⟩ := covers_iff.mp hr
  obtain ⟨hs₁, hs₂, hs₃⟩ := covers_iff.mp hs
  have h₁ : Nat.ble s.first r.last = true := Nat.ble_eq.mpr (by omega)
  have h₂ : Nat.ble r.first s.last = true := Nat.ble_eq.mpr (by omega)
  simp only [isApart, h₁, h₂, cond_true, Bool.or_eq_true, Bool.and_eq_true, beq_iff_eq, Bool.not_eq_true',
    bne_iff_ne] at h
  obtain (⟨he, hc⟩ | ⟨he, hc⟩) | ⟨⟨hr₄, hs₄⟩, hne⟩ := h
  · have hn : n = r.first := by omega
    rw [← hn, hs] at hc
    cases hc
  · have hn : n = s.first := by omega
    rw [← hn, hr] at hc
    cases hc
  · rw [hr₄] at hr₃
    rw [hs₄] at hs₃
    omega

end LetterRun

/-- The letters that have another upper case, those with one of several characters as runs of one letter. -/
def changedRuns : List LetterRun :=
  upperRuns ++ upperSpellings.map fun e => ⟨e.1, e.1, 1, 0⟩

theorem isApart_changedRuns_uppercaseRuns : (changedRuns.all fun s => uppercaseRuns.all s.isApart) = true := by
  decide +kernel

theorem lookUpRun_eq_none {runs : List LetterRun} {n : Nat} (h : ∀ r ∈ runs, r.covers n = false) :
    lookUpRun runs n = none := by
  have hf : runs.find? (·.covers n) = none := List.find?_eq_none.mpr fun r hr => by simp [h r hr]
  simp [lookUpRun, hf]

theorem lookup_eq_none {spellings : List (Nat × List Nat)} {n : Nat} (h : ∀ e ∈ spellings, e.1 ≠ n) :
    spellings.lookup n = none := by
  rw [List.lookup_eq_none_iff]
  intro e he
  simpa using (h e he).symm

theorem mapCase_of_covers {r : LetterRun} (hr : r ∈ uppercaseRuns) {c : Char} (hc : r.covers c.toNat = true) :
    mapCase upperRuns upperSpellings c = [c] := by
  have hall : ∀ s ∈ changedRuns, s.covers c.toNat = false := by
    intro s hs
    have hapart := List.all_eq_true.mp isApart_changedRuns_uppercaseRuns s hs
    exact LetterRun.covers_eq_false_of_isApart (List.all_eq_true.mp hapart r hr) hc
  obtain ⟨hruns, hspellings⟩ := List.forall_mem_append.mp hall
  have hne : ∀ e ∈ upperSpellings, e.1 ≠ c.toNat := by
    intro e he hn
    have := hspellings _ (List.mem_map_of_mem he)
    simp [LetterRun.covers, hn] at this
  simp [mapCase, lookUpRun_eq_none hruns, lookup_eq_none hne]

/-- An upper-case letter is its own upper case. -/
theorem upperCase_of_isUpper {c : Char} (h : isUpper c = true) : upperCase c = [c] := by
  unfold isUpper at h
  unfold upperCase
  split at h
  · next hascii =>
    have hle : c.val ≤ 'Z'.val := (of_decide_eq_true h).2
    have hu : c.toUpper = c := dif_neg fun hlower => absurd (Nat.le_trans hlower.1 hle) (by decide)
    rw [if_pos hascii, hu]
  · next hascii =>
    obtain ⟨r, hr, hc⟩ := List.any_eq_true.mp h
    rw [if_neg hascii]
    exact mapCase_of_covers hr hc

/-- A text that starts with an upper-case letter is its own capitalization. -/
theorem capitalizedChars_of_isUpper {s : List Char} (h : s.head?.any isUpper = true) : capitalizedChars s = s := by
  cases s with
  | nil => rfl
  | cons c s =>
    have hc : isUpper c = true := h
    rw [capitalizedChars, upperCase_of_isUpper hc]
    rfl

end NameAdvisor.Text
