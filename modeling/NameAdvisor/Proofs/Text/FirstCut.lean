import NameAdvisor.Text.Search
import Mathlib.Data.List.Infix

/-!
# The first place in a text

A text is cut at the first place with a property, such as the first occurrence of a part.  What comes after the place
does not matter for an occurrence, and what comes before it only if it holds one itself or if one can begin in it.

## Main definitions

* `Text.FirstCut`: the first place of a text with a property.
* `Text.FirstOccurrence`: the first place of a text at which a part stands.
-/

namespace NameAdvisor.Text

/-- The first place at which `s` can be cut so that the two parts have a property. -/
structure FirstCut (p : List Char → List Char → Prop) (s before rest : List Char) : Prop where
  append_eq : before ++ rest = s
  holds : p before rest
  first : ∀ x y, x ++ y = s → p x y → before.length ≤ x.length

namespace FirstCut

variable {p : List Char → List Char → Prop} {s before rest : List Char} {c : Char}

theorem unique {x y : List Char} (h : FirstCut p s before rest) (h' : FirstCut p s x y) : before = x ∧ rest = y := by
  have hlength : before.length = x.length :=
    le_antisymm (h.first x y h'.append_eq h'.holds) (h'.first before rest h.append_eq h.holds)
  exact List.append_inj (h.append_eq.trans h'.append_eq.symm) hlength

theorem nil_iff : FirstCut p [] before rest ↔ before = [] ∧ rest = [] ∧ p [] [] := by
  constructor
  · rintro ⟨happend, hp, -⟩
    obtain ⟨rfl, rfl⟩ := List.append_eq_nil_iff.mp happend
    exact ⟨rfl, rfl, hp⟩
  · rintro ⟨rfl, rfl, hp⟩
    exact ⟨rfl, hp, fun x y _ _ => Nat.zero_le _⟩

/-- A text that has the property where it starts is cut there. -/
theorem here_iff (h : p [] s) : FirstCut p s before rest ↔ before = [] ∧ rest = s := by
  constructor
  · rintro ⟨rfl, -, hfirst⟩
    obtain rfl := List.length_eq_zero_iff.mp (Nat.le_zero.mp (hfirst [] _ rfl h))
    exact ⟨rfl, rfl⟩
  · rintro ⟨rfl, rfl⟩
    exact ⟨rfl, h, fun x y _ _ => Nat.zero_le _⟩

/-- Any other text is cut behind its first character. -/
theorem cons_iff (h : ¬ p [] (c :: s)) :
    FirstCut p (c :: s) before rest ↔ ∃ front, before = c :: front ∧ FirstCut (fun x => p (c :: x)) s front rest := by
  constructor
  · rintro ⟨happend, hp, hfirst⟩
    cases before with
    | nil =>
      rw [List.nil_append] at happend
      exact absurd (happend ▸ hp) h
    | cons d front =>
      obtain ⟨rfl, rfl⟩ := List.cons.inj happend
      refine ⟨front, rfl, rfl, hp, ?_⟩
      intro x y hxy hx
      have := hfirst (d :: x) y (by rw [List.cons_append, hxy]) hx
      simpa using this
  · rintro ⟨front, rfl, rfl, hp, hfirst⟩
    refine ⟨rfl, hp, ?_⟩
    intro x y hxy hx
    cases x with
    | nil =>
      rw [List.nil_append] at hxy
      exact absurd (hxy ▸ hx) h
    | cons d x =>
      obtain ⟨rfl, htail⟩ := List.cons.inj hxy
      have := hfirst x y htail hx
      simpa using this

theorem exists_of_holds {x y : List Char} (h : p x y) : ∃ before rest, FirstCut p (x ++ y) before rest := by
  obtain ⟨s, hs⟩ : ∃ s, x ++ y = s := ⟨_, rfl⟩
  induction s generalizing p x with
  | nil =>
    obtain ⟨rfl, rfl⟩ := List.append_eq_nil_iff.mp hs
    exact ⟨[], [], nil_iff.mpr ⟨rfl, rfl, h⟩⟩
  | cons c s ih =>
    rw [hs]
    by_cases hhere : p [] (c :: s)
    · exact ⟨[], c :: s, (here_iff hhere).mpr ⟨rfl, rfl⟩⟩
    · cases x with
      | nil => exact absurd (hs ▸ h) hhere
      | cons d x =>
        obtain ⟨rfl, htail⟩ := List.cons.inj hs
        obtain ⟨before, rest, hcut⟩ := ih (p := fun x => p (d :: x)) h htail
        exact ⟨d :: before, rest, (cons_iff hhere).mpr ⟨before, rfl, htail ▸ hcut⟩⟩

/-- The first place is still the first with a property that fewer places have. -/
theorem restrict {q : List Char → List Char → Prop} (h : FirstCut p s before rest) (hholds : q before rest)
    (hqp : ∀ x y, q x y → p x y) : FirstCut q s before rest :=
  ⟨h.append_eq, hholds, fun x y hxy hq => h.first x y hxy (hqp x y hq)⟩

end FirstCut

/-! ## The first occurrence of a part -/

/-- The first place of `s` at which the characters `part` stand in a row. -/
def FirstOccurrence (part s front rest : List Char) : Prop :=
  FirstCut (fun _ rest => part <+: rest) s front rest

theorem firstOccurrence_start (part rest : List Char) : FirstOccurrence part (part ++ rest) [] (part ++ rest) :=
  ⟨rfl, List.prefix_append part rest, fun _ _ _ _ => Nat.zero_le _⟩

theorem exists_firstOccurrence {part s : List Char} (h : part <:+: s) :
    ∃ front back, FirstOccurrence part s front (part ++ back) := by
  obtain ⟨x, y, rfl⟩ := h
  rw [List.append_assoc]
  obtain ⟨front, rest, hcut⟩ := FirstCut.exists_of_holds (p := fun _ rest => part <+: rest) (x := x)
    (List.prefix_append part y)
  obtain ⟨back, rfl⟩ := hcut.holds
  exact ⟨front, back, hcut⟩

/-- The first occurrence is still the first when something comes after the text. -/
theorem FirstOccurrence.append {part s front rest : List Char} (h : FirstOccurrence part s front rest) (t : List Char) :
    FirstOccurrence part (s ++ t) front (rest ++ t) := by
  obtain ⟨rfl, hpart, hfirst⟩ := h
  refine ⟨by rw [List.append_assoc], hpart.trans (List.prefix_append rest t), fun x y hxy hy => ?_⟩
  by_contra hlt
  have hx : x <+: front ++ rest :=
    List.prefix_of_prefix_length_le ⟨y, hxy⟩ (List.prefix_append _ t) (by rw [List.length_append]; omega)
  obtain ⟨z, hz⟩ := hx
  obtain rfl : y = z ++ t := by
    rw [← hz, List.append_assoc] at hxy
    exact List.append_cancel_left hxy
  -- what is left of the text before `t` is longer than what is left at the occurrence
  have hlength : part.length ≤ z.length := by
    have := congrArg List.length hz
    have := hpart.length_le
    simp only [List.length_append] at *
    omega
  exact hlt (hfirst x z hz (List.prefix_of_prefix_length_le hy (List.prefix_append z t) hlength))

/-- A part that does not hold `c` ends before it. -/
theorem prefix_of_prefix_append {c : Char} {part x y : List Char} (hc : c ∉ part) (h : part <+: x ++ c :: y) :
    part <+: x := by
  obtain hle | hlt := le_or_gt part.length x.length
  · exact List.prefix_of_prefix_length_le h (List.prefix_append x _) hle
  · have hx : x ++ [c] <+: part :=
      List.prefix_of_prefix_length_le ⟨y, by simp⟩ h (by rw [List.length_append]; exact hlt)
    exact absurd (hx.subset (by simp)) hc

/-- What comes before a text does not matter if the part is not in it, and the text starts like the part does and as it
does not go on. -/
theorem FirstOccurrence.behind {c : Char} {part y front rest : List Char}
    (h : FirstOccurrence (c :: part) (c :: y) front rest) (hc : c ∉ part) {x : List Char} (hx : ¬ c :: part <:+: x) :
    FirstOccurrence (c :: part) (x ++ c :: y) (x ++ front) rest := by
  induction x with
  | nil => exact h
  | cons d x ih =>
    rw [List.infix_cons_iff, not_or] at hx
    have hhere : ¬ c :: part <+: d :: (x ++ c :: y) := by
      intro hpart
      obtain ⟨rfl, hrest⟩ := List.cons_prefix_cons.mp hpart
      exact hx.1 (List.cons_prefix_cons.mpr ⟨rfl, prefix_of_prefix_append hc hrest⟩)
    exact (FirstCut.cons_iff hhere).mpr ⟨x ++ front, rfl, ih hx.2⟩

/-- Replacing a part replaces its first occurrence, and keeps what is around it. -/
theorem replaceFirstChars_of_firstOccurrence {old s front back : List Char}
    (h : FirstOccurrence old s front (old ++ back)) (new : List Char) :
    replaceFirstChars old new s = front ++ new ++ back := by
  induction s generalizing front with
  | nil =>
    obtain ⟨rfl, hold, -⟩ := FirstCut.nil_iff.mp h
    obtain ⟨rfl, rfl⟩ := List.append_eq_nil_iff.mp hold
    simp [replaceFirstChars]
  | cons c s ih =>
    by_cases hhere : old <+: c :: s
    · obtain ⟨rfl, hs⟩ := (FirstCut.here_iff hhere).mp h
      rw [replaceFirstChars, if_pos (List.isPrefixOf_iff_prefix.mpr hhere), ← hs, List.drop_left, List.nil_append]
    · obtain ⟨front, rfl, hfront⟩ := (FirstCut.cons_iff hhere).mp h
      rw [replaceFirstChars, if_neg (by rwa [List.isPrefixOf_iff_prefix]), ih hfront]
      rfl

end NameAdvisor.Text
