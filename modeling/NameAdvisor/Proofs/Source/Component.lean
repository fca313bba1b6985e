import NameAdvisor.Proofs.Source.Domain

/-!
# Components by their names

A function whose name starts with a capital is taken for a component exactly if all of its name is ASCII letters.  With
a digit, an underscore or a dollar sign in the name, the definition counts for nothing: no component is recognised in
it, nor across its ends.

## Main definitions

* `Domain.IsCapitalized`: identifiers that start with a capital.
* `Domain.functionHead`: the start of the definition of a function.
-/

namespace NameAdvisor

namespace Domain

open Text

/-- An upper-case ASCII letter, and after it ASCII letters, digits, underscores and dollar signs. -/
def IsCapitalized (name : List Char) : Prop :=
  ∃ c rest, name = c :: rest ∧ c.isUpper = true ∧ ∀ d ∈ rest, (d.isAlphanum || d == '_' || d == '$') = true

/-- The definition of a function up to its parameters. -/
def functionHead (name : List Char) : List Char :=
  "function".toList ++ ' ' :: (name ++ ['('])

theorem isAlpha_of_mem_keyword : ∀ p ∈ introductions, ∀ c ∈ p.1.toList, c.isAlpha = true := by
  have hall : ∀ p ∈ introductions, p.1.toList.all Char.isAlpha = true := by decide
  exact fun p hp => List.all_eq_true.mp (hall p hp)

theorem IsComponentName.isAlpha {name : List Char} (h : IsComponentName name) : ∀ c ∈ name, c.isAlpha = true := by
  obtain ⟨c, rest, rfl, hc, hrest⟩ := h
  exact List.forall_mem_cons.mpr ⟨isAlpha_of_isUpper hc, hrest⟩

/-! ## Texts one after the other -/

theorem definesComponent_cons_of_not_prefix {c : Char} {s : List Char}
    (h : ∀ p ∈ introductions, ¬ p.1.toList <+: c :: s) : definesComponent (c :: s) = definesComponent s := by
  rw [Bool.eq_iff_iff, definesComponent_cons_iff, or_iff_right]
  rintro ⟨_, ⟨p, hp, gap, name, space, -, -, -, rfl⟩, hs⟩
  exact h p hp ((List.prefix_append _ _).trans hs)

/-- While every opening that starts in a text also ends in it, what follows defines its components by itself. -/
theorem definesComponent_append {x y : List Char}
    (h : ∀ x', x' ≠ [] → x' <:+ x → ∀ text, Opens text → text <+: x' ++ y → text <+: x') :
    definesComponent (x ++ y) = (definesComponent x || definesComponent y) := by
  rw [Bool.eq_iff_iff, Bool.or_eq_true]
  induction x with
  | nil => simp [definesComponent]
  | cons c x ih =>
    have hx := ih fun x' hne hsuffix => h x' hne (hsuffix.trans (List.suffix_cons c x))
    have hc := h (c :: x) (List.cons_ne_nil c x) (List.suffix_refl _)
    have hstart : (∃ text, Opens text ∧ text <+: c :: (x ++ y)) ↔ ∃ text, Opens text ∧ text <+: c :: x := by
      constructor
      · rintro ⟨text, htext, hs⟩
        exact ⟨text, htext, hc text htext hs⟩
      · rintro ⟨text, htext, hs⟩
        exact ⟨text, htext, hs.trans (List.prefix_append (c :: x) y)⟩
    rw [List.cons_append, definesComponent_cons_iff, definesComponent_cons_iff, hx, hstart, or_assoc]

/-- While no opening starts in a text, what follows defines the components. -/
theorem definesComponent_append_of_not_opens {x y : List Char}
    (h : ∀ x', x' ≠ [] → x' <:+ x → ¬ ∃ text, Opens text ∧ text <+: x' ++ y) :
    definesComponent (x ++ y) = definesComponent y := by
  induction x with
  | nil => rfl
  | cons c x ih =>
    have hx := ih fun x' hne hsuffix => h x' hne (hsuffix.trans (List.suffix_cons c x))
    have hc := h (c :: x) (List.cons_ne_nil c x) (List.suffix_refl _)
    rw [List.cons_append] at hc ⊢
    rw [← hx, Bool.eq_iff_iff, definesComponent_cons_iff, or_iff_right hc]

/-- No opening starts in a text that has no keyword with a gap after it. -/
theorem definesComponent_append_of_gapless {x y : List Char} (hy : ∃ c t, y = c :: t ∧ c.isAlpha = false)
    (h : ∀ p ∈ introductions, ∀ x', p.1.toList ++ x' <:+ x → ∀ c ∈ (x' ++ y).head?, isBlank c = false) :
    definesComponent (x ++ y) = definesComponent y := by
  apply definesComponent_append_of_not_opens
  rintro x' - hsuffix ⟨_, ⟨p, hp, gap, name, space, ⟨hne, hgap⟩, -, -, rfl⟩, rest, hrest⟩
  obtain ⟨g, gap, rfl⟩ := List.exists_cons_of_ne_nil hne
  obtain ⟨c, t, rfl, hc⟩ := hy
  rw [List.append_assoc] at hrest
  obtain ⟨x'', rfl, hx''⟩ :=
    Imports.exists_of_append_eq (isAlpha_of_mem_keyword p hp) (.inr ⟨c, t, rfl, by simp [hc]⟩) hrest.symm
  have hg := h p hp x'' hsuffix g (by rw [← hx'']; rfl)
  rw [hgap g List.mem_cons_self] at hg
  cases hg

/-! ## What is before a function -/

/-- The word `function` is no name with a mark after it, since a capital follows. -/
theorem function_ne_of_isUpper {name space rest u : List Char} {mark c : Char} (hname : ∀ d ∈ name, d.isAlpha = true)
    (hspace : ∀ d ∈ space, isBlank d = true) (hmark : isBlank mark = false ∧ mark.isAlpha = false)
    (hc : c.isUpper = true) : "function".toList ++ ' ' :: c :: u ≠ name ++ (space ++ mark :: rest) := by
  intro h
  have hword : ∀ d ∈ "function".toList, d.isAlpha = true := List.all_eq_true.mp (by decide)
  obtain ⟨w, hw, heq⟩ := Imports.exists_of_append_eq hname (.inr ⟨' ', _, rfl, by decide⟩) h
  have hfirst := (head?_dropWhile_isBlank_eq_some_iff hmark.1).mpr ⟨space, rest, hspace, rfl⟩
  rw [heq] at hfirst
  have hletter : ∃ d, d.isAlpha = true ∧ ((w ++ ' ' :: c :: u).dropWhile isBlank).head? = some d := by
    cases w with
    | nil =>
      have hblank := isBlank_eq_false_of_isAlpha (isAlpha_of_isUpper hc)
      exact ⟨c, isAlpha_of_isUpper hc, by simp [hblank, show isBlank ' ' = true from rfl]⟩
    | cons d w =>
      have hd := hword d (hw ▸ by simp)
      exact ⟨d, hd, by simp [isBlank_eq_false_of_isAlpha hd]⟩
  obtain ⟨d, hd, hfirst'⟩ := hletter
  obtain rfl : mark = d := Option.some.inj (hfirst.symm.trans hfirst')
  rw [hmark.2] at hd
  cases hd

/-- An opening that starts before the word `function` and a capital ends before them, too. -/
theorem Opens.isPrefix_of_append {text x u : List Char} {c : Char} (h : Opens text) (hx : x ≠ [])
    (hc : c.isUpper = true) (hs : text <+: x ++ ("function".toList ++ ' ' :: c :: u)) : text <+: x := by
  have hintroductions : ∀ p ∈ introductions, 'f' ∉ p.1.toList.tail ∧ p.1.toList ≠ [] ∧
      isBlank p.2 = false ∧ p.2.isAlpha = false := by decide
  obtain ⟨p, hp, gap, name, space, hgap, ⟨n, letters, rfl, hn, hletters⟩, hspace, rfl⟩ := h
  obtain ⟨hkeyword, hne, hmark⟩ := hintroductions p hp
  obtain ⟨k, keyword, hk⟩ := List.exists_cons_of_ne_nil hne
  obtain ⟨d, x, rfl⟩ := List.exists_cons_of_ne_nil hx
  obtain ⟨t, ht⟩ : ∃ t, "function".toList ++ ' ' :: c :: u = 'f' :: t := ⟨_, rfl⟩
  obtain ⟨rest, hrest⟩ := hs
  rw [hk, List.tail_cons] at hkeyword
  rw [hk, ht] at hrest
  rw [hk]
  simp only [List.cons_append, List.append_assoc, List.cons.injEq, List.nil_append] at hrest
  obtain ⟨rfl, hrest⟩ := hrest
  -- the letter that `function` starts with goes on neither a keyword nor a gap
  obtain ⟨x₁, rfl, h₁⟩ := Imports.exists_of_append_eq (P := (· ≠ 'f'))
    (fun d hd => ne_of_mem_of_not_mem hd hkeyword) (.inr ⟨'f', t, rfl, by simp⟩) hrest.symm
  obtain ⟨x₂, rfl, h₂⟩ := Imports.exists_of_append_eq_gap hgap ⟨'f', t, rfl, rfl⟩ h₁.symm
  rw [← List.cons_append] at h₂
  obtain ⟨x₃, rfl, h₃⟩ | ⟨w, hw, h₃⟩ := List.append_eq_append_iff.mp h₂
  · obtain ⟨x₄, rfl, h₄⟩ := Imports.exists_of_append_eq hspace (.inr ⟨'f', t, rfl, by decide⟩) h₃.symm
    cases x₄ with
    | nil =>
      obtain ⟨hf, -⟩ := List.cons.inj h₄
      rw [hf] at hmark
      exact absurd hmark.2 (by decide)
    | cons e x₄ =>
      obtain ⟨rfl, -⟩ := List.cons.inj h₄
      exact ⟨x₄, by simp⟩
  · have hletters' : ∀ d ∈ w, d.isAlpha = true := by
      intro d hd
      have hmem : d ∈ n :: letters := hw ▸ List.mem_append_right _ hd
      obtain rfl | hmem := List.mem_cons.mp hmem
      · exact isAlpha_of_isUpper hn
      · exact hletters d hmem
    exact absurd (ht.trans h₃) (function_ne_of_isUpper hletters' hspace hmark hc)

/-! ## The definition of a function -/

theorem functionHead_append (name b : List Char) :
    functionHead name ++ b = "function".toList ++ ' ' :: (name ++ '(' :: b) := by
  -- the equation that `rw` would take is not found in time
  delta functionHead
  simp only [List.append_assoc, List.cons_append, List.nil_append]

theorem not_keyword_infix_unction : ∀ p ∈ introductions, ¬ p.1.toList <:+: "unction".toList := by
  decide +kernel

/-- A keyword with a gap after it, where the word `function` with a blank after it stands, is all of the word. -/
theorem eq_gap_append_of_keyword {p : String × Char} (hp : p ∈ introductions) {gap rest t : List Char}
    (hgap : Imports.IsGap gap) (h : "function".toList ++ ' ' :: t = p.1.toList ++ (gap ++ rest)) :
    gap ++ rest = ' ' :: t := by
  obtain ⟨w, hw, hrest⟩ := Imports.exists_of_append_eq (isAlpha_of_mem_keyword p hp) (.inr ⟨' ', t, rfl, by decide⟩) h
  cases w with
  | nil => exact hrest
  | cons e w =>
    obtain ⟨g, gap, rfl⟩ := List.exists_cons_of_ne_nil hgap.1
    obtain ⟨rfl, -⟩ := List.cons.inj hrest
    have hletter : g.isAlpha = true :=
      isAlpha_of_mem_keyword _ List.mem_cons_self g (hw ▸ List.mem_append_right _ List.mem_cons_self)
    have hblank := hgap.2 g List.mem_cons_self
    rw [isBlank_eq_false_of_isAlpha hletter] at hblank
    cases hblank

section Function

variable {name : List Char} (h : IsCapitalized name)

include h

theorem IsCapitalized.not_isBlank : ∀ c ∈ name, isBlank c = false ∧ ∀ p ∈ introductions, c ≠ p.2 := by
  obtain ⟨c, rest, rfl, hc, hrest⟩ := h
  intro d hd
  have hword : (d.isAlphanum || d == '_' || d == '$') = true := by
    obtain rfl | hd := List.mem_cons.mp hd
    · simp [Char.isAlphanum, isAlpha_of_isUpper hc]
    · exact hrest d hd
  constructor
  · apply isBlank_eq_false_of_visible
    simp only [Char.isAlphanum, Bool.or_eq_true, isAlpha_iff, Char.isDigit, Bool.and_eq_true, decide_eq_true_eq,
      beq_iff_eq, UInt32.le_iff_toNat_le] at hword
    obtain (hword | rfl) | rfl := hword
    · simp only [Char.toNat] at hword ⊢
      grind
    · decide
    · decide
  · have hmarks : ∀ p ∈ introductions, ¬ (p.2.isAlphanum || p.2 == '_' || p.2 == '$') = true := by decide
    rintro p hp rfl
    exact hmarks p hp hword

/-- A name that a mark comes after is all of the identifier: what else belongs to it is neither a blank nor a mark. -/
theorem IsCapitalized.eq_of_append_eq {letters space rest b : List Char} {p : String × Char} (hp : p ∈ introductions)
    (hletters : ∀ c ∈ letters, c.isAlpha = true) (hspace : ∀ c ∈ space, isBlank c = true)
    (heq : name ++ '(' :: b = letters ++ (space ++ p.2 :: rest)) : name = letters := by
  obtain ⟨w, rfl, hw⟩ := Imports.exists_of_append_eq hletters (.inr ⟨'(', b, rfl, by decide⟩) heq
  cases w with
  | nil => exact List.append_nil letters
  | cons d w =>
    obtain ⟨hblank, hmark⟩ := h.not_isBlank d (by simp)
    cases space with
    | nil =>
      obtain ⟨rfl, -⟩ := List.cons.inj hw
      exact absurd rfl (hmark p hp)
    | cons e space =>
      obtain ⟨rfl, -⟩ := List.cons.inj hw
      rw [hspace e List.mem_cons_self] at hblank
      cases hblank

/-- A component starts with the definition of a function exactly if all of the name is letters. -/
theorem IsCapitalized.opens_iff (b : List Char) :
    (∃ text, Opens text ∧ text <+: functionHead name ++ b) ↔ ∀ c ∈ name, c.isAlpha = true := by
  obtain ⟨c, others, hcons, hc, -⟩ := id h
  have hblank := isBlank_eq_false_of_isAlpha (isAlpha_of_isUpper hc)
  rw [functionHead_append]
  constructor
  · rintro ⟨_, ⟨p, hp, gap, letters, space, hgap, hletters, hspace, rfl⟩, rest, hrest⟩
    obtain ⟨d, others', hd, hupper, -⟩ := id hletters
    simp only [List.append_assoc, List.singleton_append] at hrest
    have hblank' : isBlank d = false := isBlank_eq_false_of_isAlpha (isAlpha_of_isUpper hupper)
    have hname : (' ' :: (name ++ '(' :: b)).dropWhile isBlank = name ++ '(' :: b := by
      rw [hcons]
      simp [hblank, show isBlank ' ' = true from rfl]
    have hhead : ∃ e t, letters ++ (space ++ p.2 :: rest) = e :: t ∧ isBlank e = false :=
      ⟨d, _, by rw [hd]; rfl, hblank'⟩
    have hcut := (Imports.takeWhile_dropWhile_of_isGap hgap hhead).2
    rw [eq_gap_append_of_keyword hp hgap hrest.symm, hname] at hcut
    rw [h.eq_of_append_eq hp hletters.isAlpha hspace hcut]
    exact hletters.isAlpha
  · intro hall
    refine ⟨functionHead name, ⟨("function", '('), by simp [introductions], [' '], name, [], ?_, ?_, ?_, ?_⟩, b, ?_⟩
    · exact ⟨List.cons_ne_nil _ _, List.all_eq_true.mp (by decide)⟩
    · exact ⟨c, others, hcons, hc, fun d hd => hall d (hcons ▸ List.mem_cons_of_mem c hd)⟩
    · simp
    · rfl
    · rw [functionHead_append]

/-- The definition of a function and what follows define a component if all of the name is letters, or else if what
follows does. -/
theorem IsCapitalized.definesComponent_iff (b : List Char) :
    definesComponent (functionHead name ++ b) = true ↔ (∀ c ∈ name, c.isAlpha = true) ∨ definesComponent b = true := by
  have hword (s : List Char) : definesComponent ("unction".toList ++ ' ' :: s) = definesComponent s := by
    rw [definesComponent_append_of_gapless ⟨' ', s, rfl, rfl⟩, definesComponent_cons_of_not_prefix]
    · simp [introductions]
    · intro p hp x' hsuffix
      exact absurd ((List.prefix_append _ x').isInfix.trans hsuffix.isInfix) (not_keyword_infix_unction p hp)
  have hname : definesComponent (name ++ '(' :: b) = definesComponent b := by
    rw [definesComponent_append_of_gapless ⟨'(', b, rfl, rfl⟩, definesComponent_cons_of_not_prefix]
    · simp [introductions]
    · intro p hp x' hsuffix c hc
      cases x' with
      | nil =>
        obtain rfl := Option.some.inj hc
        rfl
      | cons d x' =>
        obtain rfl := Option.some.inj hc
        exact (h.not_isBlank d (hsuffix.mem (by simp))).1
  have hfirst : "function".toList = 'f' :: "unction".toList := by decide
  rw [← h.opens_iff b, functionHead_append, hfirst, List.cons_append, definesComponent_cons_iff, hword, hname]

end Function

theorem ofSource_eq_reactComponent_iff {s : List Char} :
    ofSource s = reactComponent ↔ definesComponent s = true := by
  unfold ofSource
  split_ifs <;> simp_all

/-- A text with the definition of a function in it is about components exactly if all of the name is letters, or if what
stands before or after the definition is: a name with a digit, an underscore or a dollar sign is not recognised, and
its definition joins nothing that stands around it. -/
theorem ofSource_functionHead_iff (a b : List Char) {name : List Char} (h : IsCapitalized name) :
    ofSource (a ++ functionHead name ++ b) = reactComponent ↔
      (∀ c ∈ name, c.isAlpha = true) ∨ ofSource a = reactComponent ∨ ofSource b = reactComponent := by
  obtain ⟨c, rest, hcons, hc, -⟩ := id h
  have hbefore : definesComponent (a ++ (functionHead name ++ b)) =
      (definesComponent a || definesComponent (functionHead name ++ b)) := by
    apply definesComponent_append
    intro x' hne _ text htext hs
    rw [functionHead_append, hcons, List.cons_append] at hs
    exact htext.isPrefix_of_append hne hc hs
  simp only [ofSource_eq_reactComponent_iff, List.append_assoc]
  rw [hbefore, Bool.or_eq_true, h.definesComponent_iff]
  tauto

/-- A name of letters is recognised between anything. -/
theorem ofSource_functionHead_of_userCard :
    IsCapitalized "UserCard".toList ∧
      ofSource ("useState(0); /* ".toList ++ functionHead "UserCard".toList ++ "\n".toList) = reactComponent := by
  have hname : IsCapitalized "UserCard".toList := ⟨'U', "serCard".toList, rfl, rfl, List.all_eq_true.mp (by decide)⟩
  refine ⟨hname, (ofSource_functionHead_iff _ _ hname).mpr (.inl ?_)⟩
  exact List.all_eq_true.mp (by decide)

/-- A component with a digit in its name is not recognised. -/
theorem component_missed_with_digit :
    IsCapitalized "Grid2".toList ∧
      ofSource ([] ++ functionHead "Grid2".toList ++ ") \x7b return null; \x7d".toList) = general := by
  exact ⟨⟨'G', "rid2".toList, rfl, rfl, List.all_eq_true.mp (by decide)⟩, by decide +kernel⟩

end Domain

end NameAdvisor
