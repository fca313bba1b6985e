import Mathlib.Data.Prod.Lex
import Mathlib.Data.String.Basic
import Mathlib.Order.Lex
import NameAdvisor.FileSystem.Path

/-!
# The order of paths

Paths are in the order of their parts, which is a strict order that tells paths of different parts apart.

## Main definitions

* `Path.orderKey`: the ranks and texts of the parts, by which paths are in order.
-/

namespace NameAdvisor.Path

/-- What parts are compared by: their class, then their text. -/
def Component.key (c : Component) : ℕ ×ₗ String :=
  toLex (c.rank, c.text)

theorem Component.before_iff (a b : Component) : a.before b = true ↔ a.key < b.key := by
  cases a <;> cases b <;> simp [before, key, rank, text, Prod.Lex.toLex_lt_toLex]

theorem Component.key_injective : Function.Injective key := by
  intro a b h
  cases a <;> cases b <;> simp_all [key, rank, text]

/-- What paths are compared by. -/
def orderKey (p : Path) : List (ℕ ×ₗ String) :=
  p.components.map Component.key

theorem componentsBefore_iff (as bs : List Component) :
    componentsBefore as bs = true ↔ as.map Component.key < bs.map Component.key := by
  induction as generalizing bs with
  | nil => cases bs <;> simp [componentsBefore]
  | cons a as ih =>
    cases bs with
    | nil => simp [componentsBefore]
    | cons b bs =>
      simp [componentsBefore, ih, Component.before_iff, List.cons_lt_cons_iff, Component.key_injective.eq_iff]

theorem before_iff (p q : Path) : p.before q = true ↔ p.orderKey < q.orderKey :=
  componentsBefore_iff _ _

theorem not_before_of_before {p q : Path} (h : p.before q = true) : ¬ q.before p = true := by
  rw [before_iff] at *
  exact h.asymm

/-- Of two paths with different parts, one comes before the other. -/
theorem before_or_before {p q : Path} (h : p.components ≠ q.components) : p.before q = true ∨ q.before p = true := by
  rw [before_iff, before_iff]
  exact lt_or_gt_of_ne fun he => h (List.map_injective_iff.mpr Component.key_injective he)

/-- Paths with different parts stand strictly one before the other once they are sorted. -/
theorem pairwise_before_mergeSort {ps : List Path} (h : ps.Pairwise fun p q => p.components ≠ q.components) :
    (ps.mergeSort fun p q => !q.before p).Pairwise fun p q => p.before q = true := by
  have hle (p q : Path) : (!q.before p) = true ↔ p.orderKey ≤ q.orderKey := by simp [← not_lt, ← before_iff]
  have hsorted : (ps.mergeSort fun p q => !q.before p).Pairwise fun p q => (!q.before p) = true := by
    refine List.pairwise_mergeSort (fun p q r hpq hqr => ?_) (fun p q => ?_) ps
    · rw [hle] at *
      exact hpq.trans hqr
    · rw [Bool.or_eq_true, hle, hle]
      exact le_total _ _
  have hne := (List.mergeSort_perm ps fun p q => !q.before p).symm.pairwise h fun hpq => hpq.symm
  refine (hsorted.and hne).imp fun ⟨hnot, hpq⟩ => ?_
  obtain hlt | hgt := before_or_before hpq
  · exact hlt
  · simp [hgt] at hnot

end NameAdvisor.Path
