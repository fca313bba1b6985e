import NameAdvisor.Source.Context
import NameAdvisor.Proofs.Source.ImportClause
import Mathlib.Order.Basic

/-!
# What a text is about

A text is given the highest domain of which it holds a sign: the start of the definition of a component, or one of the
words of the other domains.  A sign is a part of the text and has no regard for what stands around it, so a text is at
least as high as each of its parts.

## Main definitions

* `Domain.rank`: the order of the domains.
* `Domain.Opens`: texts that start the definition of a component.
* `Domain.Sign`, `Domain.Shows`: the signs of a domain, and the texts that hold one.
-/

namespace NameAdvisor

namespace Text

/-- The visible ASCII characters are no blanks. -/
theorem isBlank_eq_false_of_visible {c : Char} (h : 0x20 < c.toNat ∧ c.toNat < 0x7F) : isBlank c = false := by
  simp [isBlank]
  omega

theorem isAlpha_iff {c : Char} :
    c.isAlpha = true ↔ 65 ≤ c.toNat ∧ c.toNat ≤ 90 ∨ 97 ≤ c.toNat ∧ c.toNat ≤ 122 := by
  delta Char.isAlpha Char.isUpper Char.isLower
  simp [UInt32.le_iff_toNat_le]

theorem isBlank_eq_false_of_isAlpha {c : Char} (h : c.isAlpha = true) : isBlank c = false := by
  rw [isAlpha_iff] at h
  exact isBlank_eq_false_of_visible (by omega)

theorem isAlpha_eq_false_of_isBlank {c : Char} (h : isBlank c = true) : c.isAlpha = false := by
  rw [← Bool.not_eq_true]
  intro hletter
  rw [isBlank_eq_false_of_isAlpha hletter] at h
  cases h

theorem isAlpha_of_isUpper {c : Char} (h : c.isUpper = true) : c.isAlpha = true :=
  Bool.or_eq_true_iff.mpr (.inl h)

/-- A text that has `mark` after its first blanks. -/
theorem head?_dropWhile_isBlank_eq_some_iff {mark : Char} (hmark : isBlank mark = false) {s : List Char} :
    (s.dropWhile isBlank).head? = some mark ↔
      ∃ space rest, (∀ c ∈ space, isBlank c = true) ∧ s = space ++ mark :: rest := by
  constructor
  · intro h
    obtain ⟨rest, hrest⟩ := List.head?_eq_some_iff.mp h
    refine ⟨s.takeWhile isBlank, rest, fun c hc => List.all_eq_true.mp List.all_takeWhile c hc, ?_⟩
    rw [← hrest, List.takeWhile_append_dropWhile]
  · rintro ⟨space, rest, hspace, rfl⟩
    simp [List.dropWhile_append_of_pos hspace, hmark]

end Text

namespace Domain

open Text

/-! ## The order of the domains -/

/-- How high a domain is: the higher one of two counts. -/
def rank : Domain → Nat
  | general => 0
  | api => 1
  | testing => 2
  | reactHooks => 3
  | reactComponent => 4

/-- They are listed from the highest one down. -/
example : all.Pairwise (fun d e => e.rank < d.rank) := by decide

theorem rank_injective : Function.Injective rank := by
  intro d e h
  cases d <;> cases e <;> first | rfl | cases h

instance : PartialOrder Domain :=
  PartialOrder.lift rank rank_injective

instance (d e : Domain) : Decidable (d ≤ e) :=
  inferInstanceAs (Decidable (d.rank ≤ e.rank))

theorem general_le (d : Domain) : general ≤ d :=
  Nat.zero_le d.rank

/-! ## Components -/

/-- A name that is taken for the one of a component: a capital and further letters, all of them ASCII. -/
def IsComponentName (name : List Char) : Prop :=
  ∃ c rest, name = c :: rest ∧ c.isUpper = true ∧ ∀ d ∈ rest, d.isAlpha = true

/-- The text is `keyword`, a gap, a name, and `mark` after any number of blanks. -/
def Introduces (keyword : String) (mark : Char) (text : List Char) : Prop :=
  ∃ gap name space, Imports.IsGap gap ∧ IsComponentName name ∧ (∀ c ∈ space, isBlank c = true) ∧
    text = keyword.toList ++ (gap ++ (name ++ (space ++ [mark])))

/-- The keywords that a definition starts with, and what marks it as one after the name. -/
def introductions : List (String × Char) :=
  [("function", '('), ("const", '=')]

/-- The text starts the definition of a component. -/
def Opens (text : List Char) : Prop :=
  ∃ p ∈ introductions, Introduces p.1 p.2 text

/-- The name of a component is the longest one that a text starts with. -/
theorem afterComponentName?_eq_some_iff {s rest : List Char} :
    afterComponentName? s = some rest ↔
      ∃ name, IsComponentName name ∧ s = name ++ rest ∧ ∀ c ∈ rest.head?, c.isAlpha = false := by
  constructor
  · intro h
    unfold afterComponentName? at h
    split at h
    · next c s =>
      split at h
      · next hupper =>
        obtain rfl := Option.some.inj h
        refine ⟨c :: s.takeWhile (·.isAlpha), ⟨c, _, rfl, hupper, ?_⟩, ?_, ?_⟩
        · exact fun d hd => List.all_eq_true.mp List.all_takeWhile d hd
        · rw [List.cons_append, List.takeWhile_append_dropWhile]
        · intro d hd
          have := List.head?_dropWhile_not (·.isAlpha) s
          rw [hd] at this
          simpa using this
      · cases h
    · cases h
  · rintro ⟨name, ⟨c, letters, rfl, hupper, hletters⟩, rfl, hrest⟩
    rw [List.cons_append, afterComponentName?, if_pos hupper, List.dropWhile_append_of_pos hletters]
    cases rest with
    | nil => rfl
    | cons d rest => simp [hrest d rfl]

/-- A text starts a component exactly if it starts with the introduction of one. -/
theorem startsComponent_iff {keyword : String} {mark : Char} (hmark : isBlank mark = false)
    (hletter : mark.isAlpha = false) {s : List Char} :
    startsComponent keyword mark s = true ↔ ∃ text, Introduces keyword mark text ∧ text <+: s := by
  constructor
  · intro h
    unfold startsComponent at h
    split at h
    · cases h
    · next s' hs =>
      obtain ⟨hgap, hname⟩ := (Bool.and_eq_true _ _).mp h
      split at hname
      · next rest hrest =>
        obtain ⟨name, hname', hs', -⟩ := afterComponentName?_eq_some_iff.mp hrest
        obtain ⟨space, after, hspace, rfl⟩ := (head?_dropWhile_isBlank_eq_some_iff hmark).mp (beq_iff_eq.mp hname)
        have hfirst := Imports.isGap_takeWhile ((Bool.not_eq_true' _).mp hgap)
        refine ⟨_, ⟨_, name, space, hfirst, hname', hspace, rfl⟩, after, ?_⟩
        rw [Imports.after?_eq_some_iff.mp hs]
        conv_rhs => rw [← List.takeWhile_append_dropWhile (p := isBlank) (l := s'), hs']
        simp
      · cases hname
  · rintro ⟨_, ⟨gap, name, space, hgap, hname, hspace, rfl⟩, rest, rfl⟩
    obtain ⟨c, letters, hcons, hupper, -⟩ := id hname
    have hhead : ∃ c s, name ++ (space ++ mark :: rest) = c :: s ∧ isBlank c = false :=
      ⟨c, _, by rw [hcons]; rfl, isBlank_eq_false_of_isAlpha (isAlpha_of_isUpper hupper)⟩
    have hend : ∀ c ∈ (space ++ mark :: rest).head?, c.isAlpha = false := by
      intro d hd
      cases space with
      | nil => simp_all
      | cons e space =>
        obtain rfl := Option.some.inj hd
        exact isAlpha_eq_false_of_isBlank (hspace e List.mem_cons_self)
    have hafter : Imports.after? keyword.toList (keyword.toList ++ (gap ++ (name ++ (space ++ mark :: rest)))) =
        some (gap ++ (name ++ (space ++ mark :: rest))) := Imports.after?_eq_some_iff.mpr rfl
    obtain ⟨htake, hdrop⟩ := Imports.takeWhile_dropWhile_of_isGap hgap hhead
    have hpast := afterComponentName?_eq_some_iff.mpr ⟨name, hname, rfl, hend⟩
    have hlast := (head?_dropWhile_isBlank_eq_some_iff hmark).mpr ⟨space, rest, hspace, rfl⟩
    have hne : gap.isEmpty = false := by simpa using hgap.1
    simp [startsComponent, hafter, htake, hdrop, hpast, hlast, hne]

theorem startsComponent_any_iff {s : List Char} :
    (introductions.any fun p => startsComponent p.1 p.2 s) = true ↔ ∃ text, Opens text ∧ text <+: s := by
  have hmarks : ∀ p ∈ introductions, isBlank p.2 = false ∧ p.2.isAlpha = false := by decide
  rw [List.any_eq_true]
  constructor
  · rintro ⟨p, hp, h⟩
    obtain ⟨text, htext, hs⟩ := (startsComponent_iff (hmarks p hp).1 (hmarks p hp).2).mp h
    exact ⟨text, ⟨p, hp, htext⟩, hs⟩
  · rintro ⟨text, ⟨p, hp, htext⟩, hs⟩
    exact ⟨p, hp, (startsComponent_iff (hmarks p hp).1 (hmarks p hp).2).mpr ⟨text, htext, hs⟩⟩

theorem definesComponent_cons_iff {c : Char} {s : List Char} :
    definesComponent (c :: s) = true ↔ (∃ text, Opens text ∧ text <+: c :: s) ∨ definesComponent s = true := by
  rw [← startsComponent_any_iff, ← Bool.or_eq_true]
  simp [definesComponent, introductions]

/-- A component is defined exactly where the definition of one starts. -/
theorem definesComponent_iff {s : List Char} : definesComponent s = true ↔ ∃ text, Opens text ∧ text <:+: s := by
  induction s with
  | nil =>
    have hnone : definesComponent [] = introductions.any fun p => startsComponent p.1 p.2 [] := by decide
    simp only [hnone, startsComponent_any_iff, List.prefix_nil, List.infix_nil]
  | cons c s ih =>
    rw [definesComponent_cons_iff]
    simp only [ih, List.infix_cons_iff, and_or_left, exists_or]

/-! ## Signs -/

/-- The words that are signs of a domain. -/
def words : Domain → List String
  | reactHooks => hooks
  | testing => testCalls
  | api => apiWords
  | reactComponent | general => []

/-- The signs that a text is about something. -/
inductive Sign : Domain → List Char → Prop
  | component {text : List Char} (h : Opens text) : Sign reactComponent text
  | word {d : Domain} {word : String} (h : word ∈ d.words) : Sign d word.toList

/-- The text holds a sign of the domain. -/
def Shows (d : Domain) (s : List Char) : Prop :=
  ∃ sign, Sign d sign ∧ sign <:+: s

theorem Shows.of_infix {d : Domain} {s t : List Char} (h : Shows d s) (hst : s <:+: t) : Shows d t := by
  obtain ⟨sign, hsign, hs⟩ := h
  exact ⟨sign, hsign, hs.trans hst⟩

theorem shows_reactComponent_iff {s : List Char} : Shows reactComponent s ↔ definesComponent s = true := by
  rw [definesComponent_iff]
  constructor
  · rintro ⟨sign, hsign, hs⟩
    cases hsign with
    | component h => exact ⟨sign, h, hs⟩
    | word h => cases h
  · rintro ⟨text, h, hs⟩
    exact ⟨text, .component h, hs⟩

/-- The other domains are shown by their words. -/
theorem shows_iff {d : Domain} (hd : d ≠ reactComponent) {s : List Char} :
    Shows d s ↔ (d.words.any fun w => containsChars w.toList s) = true := by
  simp only [List.any_eq_true, containsChars_iff_infix]
  constructor
  · rintro ⟨sign, hsign, hs⟩
    cases hsign with
    | component h => exact absurd rfl hd
    | word h => exact ⟨_, h, hs⟩
  · rintro ⟨word, h, hs⟩
    exact ⟨_, .word h, hs⟩

/-- A text holds a sign of what it is about, unless it is about nothing special. -/
theorem shows_ofSource_or (s : List Char) : Shows (ofSource s) s ∨ ofSource s = general := by
  unfold ofSource
  split
  · next h => exact .inl (shows_reactComponent_iff.mpr h)
  split
  · next h => exact .inl ((shows_iff (by decide)).mpr h)
  split
  · next h => exact .inl ((shows_iff (by decide)).mpr h)
  split
  · next h => exact .inl ((shows_iff (by decide)).mpr h)
  · exact .inr rfl

/-- No sign in a text is higher than what it is about: the signs are looked for from the highest domain down. -/
theorem Shows.le_ofSource {d : Domain} {s : List Char} (h : Shows d s) : d ≤ ofSource s := by
  cases d with
  | reactComponent => rw [ofSource, if_pos (shows_reactComponent_iff.mp h)]
  | reactHooks | testing | api =>
    have hwords := (shows_iff (by decide)).mp h
    simp only [words] at hwords
    unfold ofSource
    split_ifs <;> decide
  | general => exact general_le (ofSource s)

/-- What a text is about is the highest domain of which it holds a sign. -/
theorem ofSource_le_iff {d : Domain} {s : List Char} : ofSource s ≤ d ↔ ∀ e, Shows e s → e ≤ d := by
  constructor
  · intro hle e he
    exact he.le_ofSource.trans hle
  · intro hall
    obtain h | h := shows_ofSource_or s
    · exact hall _ h
    · rw [h]
      exact general_le d

/-! ## Parts of a text -/

theorem ofSource_le_of_infix {s t : List Char} (h : s <:+: t) : ofSource s ≤ ofSource t := by
  rw [ofSource_le_iff]
  intro e he
  exact (he.of_infix h).le_ofSource

/-- What a text is about is the highest domain of which it holds a sign.  It is not lowered by what is put before or
after the text, and what several texts in a row are about is at least as high as what each of them is about. -/
theorem ofSource_monotone (a s b : List Char) (parts : List (List Char)) :
    (∀ d, ofSource s ≤ d ↔ ∀ e, Shows e s → e ≤ d) ∧ ofSource s ≤ ofSource (a ++ s ++ b) ∧
      ∀ part ∈ parts, ofSource part ≤ ofSource parts.flatten := by
  refine ⟨fun d => ofSource_le_iff, ?_, ?_⟩
  · exact ofSource_le_of_infix (List.infix_append a s b)
  · intro part hpart
    exact ofSource_le_of_infix (List.infix_of_mem_flatten hpart)

/-- A component whose name is cut in two is none in either part, and one in both together. -/
theorem ofSource_monotone_of_two_parts :
    let parts := ["describe('a', function Ab".toList, "c () ".toList]
    parts[0] ∈ parts ∧ ofSource parts[0] = testing ∧ ofSource parts[1] = general ∧
      ofSource parts.flatten = reactComponent ∧ ofSource parts[0] ≤ ofSource parts.flatten := by
  intro parts
  have hmem : parts[0] ∈ parts := List.getElem_mem _
  exact ⟨hmem, by decide +kernel, by decide +kernel, by decide +kernel,
    (ofSource_monotone [] [] [] parts).2.2 parts[0] hmem⟩

end Domain

end NameAdvisor
