import NameAdvisor.Source.Imports
import NameAdvisor.Proofs.Text.Pieces
import Mathlib.Data.List.Infix

/-!
# The clause of an import

What is read after the word `import`: blanks, of which the last ones are left to the clause, the clause up to the first
`from` that counts, and the module in quotes.  The module is found exactly if what the clause has between its blanks
stands on one line.  Behind the module nothing is found up to the end of its line: the quote that closes it would have
to open another one.

## Main definitions

* `Imports.onOneLine`: the clauses that are taken.
* `Imports.Misleads`: the clauses that hold a `from` with a quoted text of their own.
* `Imports.Names`: what follows a clause.
* `Imports.Closes`: what follows a module.
-/

namespace NameAdvisor

namespace Imports

open Text

/-! ## Words and gaps -/

/-- One or more blanks. -/
def IsGap (s : List Char) : Prop :=
  s ≠ [] ∧ ∀ c ∈ s, isBlank c = true

/-- What a text starts with is the start of a first part of it, as soon as a character of that part or the first one
after it does not belong to what the text starts with. -/
theorem exists_of_append_eq {P : Char → Prop} {g x y rest : List Char} (hg : ∀ c ∈ g, P c)
    (hx : (∃ c ∈ x, ¬ P c) ∨ ∃ c t, y = c :: t ∧ ¬ P c) (h : x ++ y = g ++ rest) :
    ∃ x', x = g ++ x' ∧ rest = x' ++ y := by
  obtain ⟨w, rfl, rfl⟩ | ⟨x', rfl, rfl⟩ := List.append_eq_append_iff.mp h
  · obtain ⟨c, hc, hP⟩ | ⟨c, t, hy, hP⟩ := hx
    · exact absurd (hg c (List.mem_append_left w hc)) hP
    · cases w with
      | nil => exact ⟨[], by simp, rfl⟩
      | cons d w =>
        obtain ⟨rfl, -⟩ := List.cons.inj hy
        exact absurd (hg d (by simp)) hP
  · exact ⟨x', rfl, rfl⟩

/-- The same of blanks. -/
theorem exists_of_append_eq_gap {g x y rest : List Char} (hg : IsGap g) (hy : ∃ c t, y = c :: t ∧ isBlank c = false)
    (h : x ++ y = g ++ rest) : ∃ x', x = g ++ x' ∧ rest = x' ++ y := by
  refine exists_of_append_eq hg.2 (.inr ?_) h
  obtain ⟨c, t, hy, hc⟩ := hy
  exact ⟨c, t, hy, by simp [hc]⟩

/-- The words of an import hold no blanks and no quotes. -/
theorem plain_words : ∀ c ∈ "import".toList ++ "from".toList, isBlank c = false ∧ isQuote c = false := by
  have hall : ("import".toList ++ "from".toList).all (fun c => !isBlank c && !isQuote c) = true := by decide
  intro c hc
  simpa only [Bool.and_eq_true, Bool.not_eq_true'] using List.all_eq_true.mp hall c hc

theorem after?_eq_some_iff {word s rest : List Char} : after? word s = some rest ↔ s = word ++ rest := by
  constructor
  · intro h
    unfold after? at h
    split at h
    · next hp =>
      obtain ⟨t, rfl⟩ := List.isPrefixOf_iff_prefix.mp hp
      rw [List.drop_left] at h
      rw [Option.some.inj h]
    · cases h
  · rintro rfl
    simp [after?]

theorem isBlank_eq_false_of_isQuote {q : Char} (h : isQuote q = true) : isBlank q = false := by
  simp only [isQuote, Bool.or_eq_true, beq_iff_eq] at h
  obtain rfl | rfl := h <;> rfl

theorem exists_cons_of_quoted? {t : List Char} {found : List Char × List Char} (h : quoted? t = some found) :
    ∃ q s, t = q :: s ∧ isQuote q = true := by
  unfold quoted? at h
  split at h
  · next q c s => exact ⟨q, c :: s, rfl, by grind⟩
  · cases h

theorem takeWhile_dropWhile_of_isGap {g t : List Char} (hg : IsGap g) (ht : ∃ c s, t = c :: s ∧ isBlank c = false) :
    (g ++ t).takeWhile isBlank = g ∧ (g ++ t).dropWhile isBlank = t := by
  obtain ⟨c, s, rfl, hc⟩ := ht
  simp [List.takeWhile_append_of_pos hg.2, List.dropWhile_append_of_pos hg.2, hc]

theorem isGap_takeWhile {s : List Char} (h : (s.takeWhile isBlank).isEmpty = false) : IsGap (s.takeWhile isBlank) :=
  ⟨by simpa using h, fun c hc => List.all_eq_true.mp List.all_takeWhile c hc⟩

/-- The word `from` counts between gaps and before a quoted text. -/
theorem fromClause?_eq_some_iff {s : List Char} {found : List Char × List Char} :
    fromClause? s = some found ↔
      ∃ gap gap' t, IsGap gap ∧ IsGap gap' ∧ s = gap ++ ("from".toList ++ (gap' ++ t)) ∧ quoted? t = some found := by
  constructor
  · intro h
    unfold fromClause? at h
    split at h
    · cases h
    · next hgap =>
      split at h
      · cases h
      · next s' hfrom =>
        split at h
        · cases h
        · next hgap' =>
          refine ⟨s.takeWhile isBlank, s'.takeWhile isBlank, s'.dropWhile isBlank, isGap_takeWhile (by simpa using hgap),
            isGap_takeWhile (by simpa using hgap'), ?_, h⟩
          rw [List.takeWhile_append_dropWhile, ← after?_eq_some_iff.mp hfrom, List.takeWhile_append_dropWhile]
  · rintro ⟨gap, gap', t, hgap, hgap', rfl, ht⟩
    obtain ⟨q, s, hq, hquote⟩ := exists_cons_of_quoted? ht
    obtain ⟨htake', hdrop'⟩ := takeWhile_dropWhile_of_isGap hgap' ⟨q, s, hq, isBlank_eq_false_of_isQuote hquote⟩
    obtain ⟨htake, hdrop⟩ := takeWhile_dropWhile_of_isGap (t := "from".toList ++ (gap' ++ t)) hgap ⟨_, _, rfl, rfl⟩
    have hafter : after? "from".toList ("from".toList ++ (gap' ++ t)) = some (gap' ++ t) := after?_eq_some_iff.mpr rfl
    have hne : gap.isEmpty = false := by simpa using hgap.1
    have hne' : gap'.isEmpty = false := by simpa using hgap'.1
    simp only [fromClause?, htake, hne, hdrop, hafter, htake', hne', hdrop', ht, Bool.false_eq_true, if_false]

theorem fromClause?_cons {c : Char} (hc : isBlank c = false) (s : List Char) : fromClause? (c :: s) = none := by
  simp [fromClause?, hc]

/-- After blanks comes either the word `from`, or none that counts. -/
theorem fromClause?_blanks {g t : List Char} (hg : ∀ c ∈ g, isBlank c = true)
    (ht : ∀ c ∈ t.head?, isBlank c = false ∧ c ≠ 'f') : fromClause? (g ++ t) = none := by
  rw [Option.eq_none_iff_forall_ne_some]
  intro found hfound
  obtain ⟨gap, gap', u, hgap, -, heq, -⟩ := fromClause?_eq_some_iff.mp hfound
  obtain ⟨w, rfl, hfrom⟩ | ⟨w, rfl, hfrom⟩ := List.append_eq_append_iff.mp heq
  · cases w with
    | nil => exact (ht 'f' (by simp [hfrom])).2 rfl
    | cons c w =>
      have hc := (ht c (by simp [hfrom])).1
      rw [hgap.2 c (by simp)] at hc
      cases hc
  · cases w with
    | nil =>
      rw [List.nil_append] at hfrom
      exact (ht 'f' (hfrom ▸ rfl)).2 rfl
    | cons c w =>
      obtain rfl : 'f' = c := (List.cons.inj hfrom).1
      exact absurd (hg 'f' (by simp)) (by decide)

theorem inLine?_cons (c : Char) (s : List Char) :
    inLine? (c :: s) =
      match fromClause? (c :: s) with
      | some found => some found
      | none => if c = '\n' then none else inLine? s := by
  -- the equations that `rw` would take are not found in time
  delta inLine?
  rfl

/-- While no part of it is followed by a `from` that counts, a text is passed up to its first line break. -/
theorem inLine?_append {x y : List Char} (h : ∀ x', x' ≠ [] → x' <:+ x → fromClause? (x' ++ y) = none) :
    inLine? (x ++ y) = if '\n' ∈ x then none else inLine? y := by
  induction x with
  | nil => simp
  | cons c x ih =>
    have hc := h (c :: x) (List.cons_ne_nil c x) (List.suffix_refl _)
    have hx := ih fun x' hne hsuffix => h x' hne (hsuffix.trans (List.suffix_cons c x))
    rw [List.cons_append] at hc ⊢
    rw [inLine?_cons, hc, hx]
    by_cases hbreak : c = '\n'
    · simp [hbreak]
    · simp [hbreak, Ne.symm hbreak]

/-! ## The end of a declaration -/

/-- What closes a module: the quote, a semicolon, and blanks with a line break before what follows. -/
def Closes (z : List Char) : Prop :=
  ∃ q ending rest, isQuote q = true ∧ (∀ c ∈ ending, isBlank c = true) ∧ '\n' ∈ ending ∧
    (∀ c ∈ rest.head?, c = 'i') ∧ z = q :: ';' :: (ending ++ rest)

theorem untilQuote?_append {x : List Char} (hx : ∀ c ∈ x, isQuote c = false ∧ c ≠ '\n') {q : Char}
    (hq : isQuote q = true) (s : List Char) : untilQuote? (x ++ q :: s) = some (x, s) := by
  induction x with
  | nil => simp [untilQuote?, hq]
  | cons c x ih =>
    obtain ⟨⟨hc, hbreak⟩, hx⟩ := List.forall_mem_cons.mp hx
    simp [untilQuote?, hc, hbreak, ih hx]

theorem untilQuote?_of_lineBreak {x : List Char} (hx : ∀ c ∈ x, isQuote c = false) (hbreak : '\n' ∈ x)
    (s : List Char) : untilQuote? (x ++ s) = none := by
  induction x with
  | nil => simp at hbreak
  | cons c x ih =>
    obtain ⟨hc, hx⟩ := List.forall_mem_cons.mp hx
    by_cases he : c = '\n'
    · subst he
      rfl
    · simp [untilQuote?, hc, he, ih hx (by simpa [Ne.symm he] using hbreak)]

theorem isQuote_eq_false_of_isBlank {c : Char} (h : isBlank c = true) : isQuote c = false := by
  rw [← Bool.not_eq_true]
  intro hq
  rw [isBlank_eq_false_of_isQuote hq] at h
  cases h

namespace Closes

variable {z : List Char}

theorem quoted?_eq_none (h : Closes z) : quoted? z = none := by
  obtain ⟨q, ending, rest, hq, hblank, hbreak, -, rfl⟩ := h
  have hnone := untilQuote?_of_lineBreak (fun c hc => isQuote_eq_false_of_isBlank (hblank c hc)) hbreak rest
  simp [quoted?, hq, hnone]

theorem exists_cons (h : Closes z) : ∃ q s, z = q :: s ∧ isQuote q = true := by
  obtain ⟨q, ending, rest, hq, -, -, -, rfl⟩ := h
  exact ⟨q, _, rfl, hq⟩

/-- No `from` counts before the end of a module: the quote there opens nothing. -/
theorem fromClause?_append (h : Closes z) {x : List Char} (hx : ∀ c ∈ x, isQuote c = false) :
    fromClause? (x ++ z) = none := by
  rw [Option.eq_none_iff_forall_ne_some]
  intro found hfound
  obtain ⟨gap, gap', t, hgap, hgap', heq, ht⟩ := fromClause?_eq_some_iff.mp hfound
  obtain ⟨q, s, hz, hq⟩ := h.exists_cons
  have hblank : ∃ c s, z = c :: s ∧ isBlank c = false := ⟨q, s, hz, isBlank_eq_false_of_isQuote hq⟩
  have hword : ∃ c s, z = c :: s ∧ ¬ c ∈ "from".toList := by
    refine ⟨q, s, hz, fun hmem => ?_⟩
    rw [(plain_words q (List.mem_append_right _ hmem)).2] at hq
    cases hq
  obtain ⟨x₁, rfl, h₁⟩ := exists_of_append_eq_gap hgap hblank heq
  obtain ⟨x₂, rfl, h₂⟩ := exists_of_append_eq (fun c hc => hc) (.inr hword) h₁.symm
  obtain ⟨x₃, rfl, rfl⟩ := exists_of_append_eq_gap hgap' hblank h₂.symm
  cases x₃ with
  | nil =>
    rw [List.nil_append, h.quoted?_eq_none] at ht
    cases ht
  | cons c x₃ =>
    obtain ⟨d, s', hd, hquote⟩ := exists_cons_of_quoted? ht
    obtain ⟨rfl, -⟩ := List.cons.inj hd
    rw [hx c (by simp)] at hquote
    cases hquote

theorem inLine?_eq_none (h : Closes z) {x : List Char} (hx : ∀ c ∈ x, isQuote c = false) : inLine? (x ++ z) = none := by
  have hz : inLine? z = none := by
    obtain ⟨q, ending, rest, hq, hblank, hbreak, hrest, rfl⟩ := h
    have hline : '\n' ∈ q :: ';' :: ending := by simp [hbreak]
    rw [← List.cons_append, ← List.cons_append, inLine?_append, if_pos hline]
    intro x' _ hsuffix
    obtain rfl | hsuffix := List.suffix_cons_iff.mp hsuffix
    · exact fromClause?_cons (isBlank_eq_false_of_isQuote hq) _
    obtain rfl | hsuffix := List.suffix_cons_iff.mp hsuffix
    · exact fromClause?_cons rfl _
    · refine fromClause?_blanks (fun c hc => hblank c (hsuffix.mem hc)) fun c hc => ?_
      obtain rfl := hrest c hc
      decide
  rw [inLine?_append, hz, ite_self]
  intro x' _ hsuffix
  exact h.fromClause?_append fun c hc => hx c (hsuffix.mem hc)

theorem moduleAfter?_eq_none (h : Closes z) {x : List Char} (hx : ∀ c ∈ x, isQuote c = false) :
    moduleAfter? (x ++ z) = none := by
  induction x with
  | nil =>
    obtain ⟨q, s, rfl, hq⟩ := h.exists_cons
    simp [moduleAfter?, isBlank_eq_false_of_isQuote hq]
  | cons c x ih =>
    obtain ⟨-, hx⟩ := List.forall_mem_cons.mp hx
    simp [moduleAfter?, ih hx, h.inLine?_eq_none hx]

end Closes

/-! ## The clause of a declaration -/

/-- Whether a clause is taken as one that imports something: blanks at both ends, and no line break between what they
surround. -/
def onOneLine (clause : List Char) : Bool :=
  clause.head?.any isBlank && clause.getLast?.any isBlank && decide (1 < clause.length) &&
    !(trimChars clause).contains '\n'

theorem onOneLine_blanks {v : List Char} (hv : ∀ c ∈ v, isBlank c = true) : onOneLine v = decide (1 < v.length) := by
  cases v with
  | nil => rfl
  | cons c w =>
    have hlast : isBlank ((c :: w).getLast (List.cons_ne_nil c w)) = true := hv _ (List.getLast_mem _)
    simp [onOneLine, trimChars_of_all_blank hv, List.getLast?_eq_some_getLast, hlast, hv c]

theorem onOneLine_padded {v before after : List Char} (hhead : ∀ c ∈ (trimChars v).head?, isBlank c = false)
    (hbody : trimChars v ≠ []) (hbefore : ∀ c ∈ before, isBlank c = true) (hafter : IsGap after)
    (h : v = before ++ (trimChars v ++ after)) : onOneLine v = decide (before ≠ [] ∧ '\n' ∉ trimChars v) := by
  have hlast : v.getLast?.any isBlank = true := by
    rw [h, ← List.append_assoc, List.getLast?_append_of_ne_nil _ hafter.1, List.getLast?_eq_some_getLast hafter.1]
    exact hafter.2 _ (List.getLast_mem hafter.1)
  have hlong : before ≠ [] → 1 < v.length := by
    intro hne
    have hlength := congrArg List.length h
    simp only [List.length_append] at hlength
    have := List.length_pos_iff.mpr hne
    have := List.length_pos_iff.mpr hbody
    omega
  have hfirst : v.head?.any isBlank = decide (before ≠ []) := by
    rw [h]
    cases before with
    | nil =>
      rw [List.nil_append, List.head?_append_of_ne_nil _ hbody, List.head?_eq_some_head hbody]
      simpa using hhead _ (List.head?_eq_some_head hbody)
    | cons c before => simpa using hbefore c
  rw [onOneLine, hfirst, hlast]
  by_cases hne : before = []
  · simp [hne]
  · simp [hne, hlong hne]

/-- A `from` with a quoted text after it, before the one that ends the clause. -/
def Misleads (clause : List Char) : Prop :=
  ∃ gap gap' q, IsGap gap ∧ IsGap gap' ∧ isQuote q = true ∧ gap ++ "from".toList ++ gap' ++ [q] <:+: clause

/-- What follows a clause: `from`, a module in quotes, and its end. -/
structure Names (tail text z : List Char) : Prop where
  exists_eq : ∃ space q, IsGap space ∧ isQuote q = true ∧ tail = "from".toList ++ (space ++ q :: (text ++ q :: z))
  ne_nil : text ≠ []
  plain : ∀ c ∈ text, isQuote c = false ∧ c ≠ '\n'
  closes : ∀ q, isQuote q = true → Closes (q :: z)

namespace Names

variable {tail text z : List Char}

theorem fromClause?_gap (h : Names tail text z) {gap : List Char} (hgap : IsGap gap) :
    fromClause? (gap ++ tail) = some (text, z) := by
  obtain ⟨space, q, hspace, hq, rfl⟩ := h.exists_eq
  refine fromClause?_eq_some_iff.mpr ⟨gap, space, _, hgap, hspace, rfl, ?_⟩
  obtain ⟨c, text', rfl⟩ := List.exists_cons_of_ne_nil h.ne_nil
  obtain ⟨⟨-, hc⟩, hplain⟩ := List.forall_mem_cons.mp h.plain
  simp [quoted?, hq, hc, untilQuote?_append hplain hq]

theorem exists_cons (h : Names tail text z) : ∃ s, tail = 'f' :: s := by
  obtain ⟨space, q, -, -, rfl⟩ := h.exists_eq
  exact ⟨_, rfl⟩

/-- A part of the clause that is no gap does not end before the `from` that counts. -/
theorem fromClause?_eq_none (h : Names tail text z) {clause b : List Char} (hclause : ¬ Misleads clause)
    (hb : b <:+ clause) (hblank : ∃ c ∈ b.getLast?, isBlank c = true) (hgap : ¬ IsGap b) :
    fromClause? (b ++ tail) = none := by
  rw [Option.eq_none_iff_forall_ne_some]
  intro found hfound
  obtain ⟨gap, gap', t, hg, hg', heq, ht⟩ := fromClause?_eq_some_iff.mp hfound
  obtain ⟨s, hs⟩ := h.exists_cons
  have hf : ∃ c s, tail = c :: s ∧ isBlank c = false := ⟨'f', s, hs, rfl⟩
  obtain ⟨b₁, rfl, h₁⟩ := exists_of_append_eq_gap hg hf heq
  have hne : b₁ ≠ [] := by
    rintro rfl
    exact hgap (by simpa using hg)
  -- the clause ends with a blank, the word does not
  have hlast : ∃ c ∈ b₁, ¬ c ∈ "from".toList := by
    obtain ⟨c, hc, hcblank⟩ := hblank
    rw [List.getLast?_append_of_ne_nil gap hne] at hc
    refine ⟨c, List.mem_of_mem_getLast? hc, ?_⟩
    intro hword
    rw [(plain_words c (List.mem_append_right _ hword)).1] at hcblank
    cases hcblank
  obtain ⟨b₂, rfl, h₂⟩ := exists_of_append_eq (fun c hc => hc) (.inl hlast) h₁.symm
  obtain ⟨b₃, rfl, rfl⟩ := exists_of_append_eq_gap hg' hf h₂.symm
  obtain ⟨q, t', hq, hquote⟩ := exists_cons_of_quoted? ht
  cases b₃ with
  | nil =>
    rw [List.nil_append, hs] at hq
    obtain ⟨rfl, -⟩ := List.cons.inj hq
    exact absurd hquote (by decide)
  | cons c b₃ =>
    obtain ⟨rfl, -⟩ := List.cons.inj hq
    have hpart : gap ++ "from".toList ++ gap' ++ [c] <:+: gap ++ ("from".toList ++ (gap' ++ c :: b₃)) :=
      ⟨[], b₃, by simp⟩
    exact hclause ⟨gap, gap', c, hg, hg', hquote, hpart.trans hb.isInfix⟩

/-- The word `from`, the gap after it and the module hold no further `from` that counts. -/
theorem inLine?_eq_none (h : Names tail text z) : inLine? tail = none := by
  obtain ⟨space, q, hspace, hq, rfl⟩ := h.exists_eq
  have hclose := h.closes q hq
  have hmodule : inLine? (q :: (text ++ q :: z)) = none := by
    have hnl : q ≠ '\n' := fun he => by
      subst he
      cases hq
    rw [inLine?_cons, fromClause?_cons (isBlank_eq_false_of_isQuote hq),
      hclose.inLine?_eq_none fun c hc => (h.plain c hc).1]
    simp
  rw [inLine?_append, inLine?_append, hmodule, ite_self, ite_self]
  · intro x' _ hsuffix
    refine fromClause?_blanks (fun c hc => hspace.2 c (hsuffix.mem hc)) ?_
    simp only [List.head?_cons, Option.mem_def, Option.some.injEq, forall_eq']
    exact ⟨isBlank_eq_false_of_isQuote hq, by rintro rfl; cases hq⟩
  · intro x' hne hsuffix
    obtain ⟨c, x', rfl⟩ := List.exists_cons_of_ne_nil hne
    exact fromClause?_cons (plain_words c (List.mem_append_right _ (hsuffix.mem List.mem_cons_self))).1 _

/-- The part of a clause from its first to its last character that is no blank is passed within its line only. -/
theorem inLine?_append_gap (h : Names tail text z) {clause body gap : List Char} (hclause : ¬ Misleads clause)
    (hsuffix : body ++ gap <:+ clause) (hlast : ∀ c ∈ body.getLast?, isBlank c = false) (hgap : IsGap gap) :
    inLine? (body ++ (gap ++ tail)) = if '\n' ∈ body then none else some (text, z) := by
  have hfound : inLine? (gap ++ tail) = some (text, z) := by
    obtain ⟨c, gap', rfl⟩ := List.exists_cons_of_ne_nil hgap.1
    rw [List.cons_append, inLine?_cons, ← List.cons_append, h.fromClause?_gap hgap]
  rw [inLine?_append, hfound]
  intro b hb hsub
  rw [← List.append_assoc]
  refine h.fromClause?_eq_none hclause (((List.suffix_append_self_iff).mpr hsub).trans hsuffix) ?_ ?_
  · refine ⟨gap.getLast hgap.1, ?_, hgap.2 _ (List.getLast_mem hgap.1)⟩
    rw [List.getLast?_append_of_ne_nil b hgap.1, List.getLast?_eq_some_getLast hgap.1]
    rfl
  · intro hall
    have hblank := hall.2 (b.getLast hb) (by simp)
    obtain ⟨before, rfl⟩ := hsub
    rw [hlast (b.getLast hb)] at hblank
    · cases hblank
    · rw [List.getLast?_append_of_ne_nil before hb, List.getLast?_eq_some_getLast hb]
      rfl

end Names

/-! ## Blanks after the first word -/

/-- The blanks after the first word are given back one by one, while nothing is found. -/
theorem moduleAfter?_of_inLine? {gap y : List Char} {found : List Char × List Char} (hgap : IsGap gap)
    (hy : moduleAfter? y = none) (hfound : inLine? y = some found) : moduleAfter? (gap ++ y) = some found := by
  induction gap with
  | nil => exact absurd rfl hgap.1
  | cons c gap ih =>
    obtain ⟨hc, hblank⟩ := List.forall_mem_cons.mp hgap.2
    by_cases hnil : gap = []
    · subst hnil
      simp [moduleAfter?, hc, hy, hfound]
    · simp [moduleAfter?, hc, ih ⟨hnil, hblank⟩]

theorem moduleAfter?_eq_none {gap y : List Char} (hy : moduleAfter? y = none)
    (hnone : ∀ gap', gap' <:+ gap → gap' ≠ gap → inLine? (gap' ++ y) = none) : moduleAfter? (gap ++ y) = none := by
  induction gap with
  | nil => exact hy
  | cons c gap ih =>
    have hlong : inLine? (gap ++ y) = none := hnone gap (List.suffix_cons c gap) (by simp)
    have hshort : moduleAfter? (gap ++ y) = none := by
      refine ih fun gap' hsuffix hne => hnone gap' (hsuffix.trans (List.suffix_cons c gap)) ?_
      rintro rfl
      exact absurd hsuffix.length_le (by simp)
    simp [moduleAfter?, hshort, hlong]

theorem moduleAfter?_of_head {s : List Char} (h : ∀ c ∈ s.head?, isBlank c = false) : moduleAfter? s = none := by
  cases s with
  | nil => rfl
  | cons c s => simp [moduleAfter?, h c rfl]

namespace Names

variable {tail text z clause v : List Char}

theorem moduleAfter?_eq_none (h : Names tail text z) : moduleAfter? tail = none := by
  obtain ⟨s, rfl⟩ := h.exists_cons
  rfl

/-- Of blanks only, the word takes one, and the `from` needs another one. -/
theorem moduleAfter?_blanks (h : Names tail text z) (hv : ∀ c ∈ v, isBlank c = true) :
    moduleAfter? (v ++ tail) = if 1 < v.length then some (text, z) else none := by
  induction v with
  | nil => exact h.moduleAfter?_eq_none
  | cons c v ih =>
    obtain ⟨hc, hblank⟩ := List.forall_mem_cons.mp hv
    rw [List.cons_append, moduleAfter?, if_pos hc, ih hblank]
    cases v with
    | nil => simp [h.inLine?_eq_none]
    | cons d v =>
      have hgap := h.fromClause?_gap ⟨List.cons_ne_nil d v, hblank⟩
      have hfound : inLine? (d :: v ++ tail) = some (text, z) := by
        rw [List.cons_append] at hgap ⊢
        rw [inLine?_cons, hgap]
      rw [hfound]
      split <;> simp_all

/-- From a place in the clause on, the module is found exactly if what stands there is one line between blanks. -/
theorem moduleAfter?_append (h : Names tail text z) (hclause : ¬ Misleads clause)
    (hend : clause.getLast?.any isBlank = true) (hv : v <:+ clause) :
    moduleAfter? (v ++ tail) = if onOneLine v then some (text, z) else none := by
  obtain ⟨before, after, hbefore, hafter, heq, hhead, hlast⟩ := exists_eq_trimChars v
  by_cases hbody : trimChars v = []
  · have hblank : ∀ c ∈ v, isBlank c = true := by
      rw [hbody, List.nil_append] at heq
      rw [heq]
      grind
    rw [h.moduleAfter?_blanks hblank, onOneLine_blanks hblank]
    simp only [decide_eq_true_eq]
  -- the clause ends with a blank, so what is left of it when stripped does not end it
  have hgap : IsGap after := by
    refine ⟨?_, hafter⟩
    rintro rfl
    obtain ⟨p, rfl⟩ := hv
    obtain ⟨c, hc, hblank⟩ := (Option.any_eq_true _ _).mp hend
    rw [heq, List.append_nil, ← List.append_assoc, List.getLast?_append_of_ne_nil _ hbody] at hc
    rw [hlast c hc] at hblank
    cases hblank
  have hstop : moduleAfter? (trimChars v ++ (after ++ tail)) = none := by
    refine moduleAfter?_of_head ?_
    rwa [List.head?_append_of_ne_nil _ hbody]
  rw [onOneLine_padded hhead hbody hbefore hgap heq]
  generalize trimChars v = body at *
  rw [heq] at hv ⊢
  rw [List.append_assoc, List.append_assoc]
  by_cases hnil : before = []
  · subst hnil
    simpa using hstop
  have hsuffix : body ++ after <:+ clause := (List.suffix_append before _).trans hv
  have hline := h.inLine?_append_gap hclause hsuffix hlast hgap
  by_cases hbreak : '\n' ∈ body
  · rw [if_neg (by simp [hbreak])]
    refine Imports.moduleAfter?_eq_none hstop fun gap' hgap' _ => ?_
    have hlast' : ∀ c ∈ (gap' ++ body).getLast?, isBlank c = false := by
      rwa [List.getLast?_append_of_ne_nil gap' hbody]
    have hsuffix' : gap' ++ body ++ after <:+ clause := by
      rw [List.append_assoc]
      exact (List.suffix_append_self_iff.mpr hgap').trans hv
    rw [← List.append_assoc, h.inLine?_append_gap hclause hsuffix' hlast' hgap, if_pos (by simp [hbreak])]
  · rw [if_pos (by simp [hbreak, hnil])]
    refine moduleAfter?_of_inLine? ⟨hnil, hbefore⟩ hstop ?_
    rw [hline, if_neg hbreak]

end Names

end Imports

end NameAdvisor
