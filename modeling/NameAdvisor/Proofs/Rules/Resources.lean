import NameAdvisor.Proofs.Rules.Contribution

/-!
# Names that tell no resource

Dropping words from the left to the right leaves nothing of a text exactly when the text is made of these words: no two
of them start alike, so that a word which is dropped is always the one that the text was made with.  A name that is
made of the words for getting a resource is offered whole names; to every other one the same resource is told after
each verb.

## Main definitions

* `Words.Spells`: a text that is a word in any case.
* `Words.MadeOf`: the texts that are made of words.
* `Words.StartApart`: words that cannot start at one place.
-/

namespace NameAdvisor

/-! ## Texts made of words -/

namespace Words

/-- `part` is the word `word` in any case. -/
def Spells (word : String) (part : List Char) : Prop :=
  List.Forall₂ (letterFits · · = true) word.toList part

/-- The texts made of some words, one after the other and each in any case. -/
inductive MadeOf (words : List String) : List Char → Prop
  | nil : MadeOf words []
  | cons {word : String} {part rest : List Char} (hw : word ∈ words) (hp : Spells word part) (hr : MadeOf words rest) :
      MadeOf words (part ++ rest)

/-- No word is empty, and a character starts one word at most. -/
structure StartApart (words : List String) : Prop where
  ne_empty : ∀ word ∈ words, word ≠ ""
  eq_of_fits : ∀ v ∈ words, ∀ w ∈ words, ∀ c, v.toList.head?.any (letterFits · c) = true →
    w.toList.head?.any (letterFits · c) = true → v = w

theorem afterWord?_eq_some_iff {word s rest : List Char} :
    afterWord? word s = some rest ↔ ∃ part, List.Forall₂ (letterFits · · = true) word part ∧ s = part ++ rest := by
  constructor
  · intro h
    fun_induction afterWord? word s with
    | case1 s => exact ⟨[], .nil, by simpa using h⟩
    | case2 => cases h
    | case3 letter word c s hc ih =>
      obtain ⟨part, hp, rfl⟩ := ih h
      exact ⟨c :: part, .cons hc hp, rfl⟩
    | case4 => cases h
  · rintro ⟨part, hp, rfl⟩
    induction hp with
    | nil => simp
    | cons hc _ ih => simpa [afterWord?, hc] using ih

variable {words : List String} {word : String} {part rest : List Char}

theorem Spells.ne_nil (h : Spells word part) (hw : word ≠ "") : part ≠ [] := by
  rintro rfl
  exact hw (String.toList_eq_nil_iff.mp (List.forall₂_nil_right_iff.mp h))

/-- A word that a text starts with starts with a letter that fits the first character. -/
theorem Spells.head_fits {c : Char} {s : List Char} (h : Spells word part) (hw : word ≠ "")
    (hs : c :: s = part ++ rest) : word.toList.head?.any (letterFits · c) = true := by
  obtain ⟨d, t, rfl⟩ := List.exists_cons_of_ne_nil (h.ne_nil hw)
  obtain ⟨letter, word', hfit, -, hword⟩ := List.forall₂_cons_right_iff.mp h
  obtain ⟨rfl, -⟩ := List.cons.inj hs
  simpa [hword] using hfit

/-- Of words that start apart, the one that a text starts with is taken off. -/
theorem StartApart.afterAny?_append (h : StartApart words) (hw : word ∈ words) (hp : Spells word part) :
    afterAny? words (part ++ rest) = some rest := by
  have hne := h.ne_empty word hw
  obtain ⟨c, t, rfl⟩ := List.exists_cons_of_ne_nil (hp.ne_nil hne)
  have hafter : afterWord? word.toList (c :: t ++ rest) = some rest := afterWord?_eq_some_iff.mpr ⟨_, hp, rfl⟩
  have hsome : (afterAny? words (c :: t ++ rest)).isSome := by
    rw [afterAny?, List.findSome?_isSome_iff]
    exact ⟨word, hw, by rw [hafter]; rfl⟩
  obtain ⟨rest', hrest'⟩ := Option.isSome_iff_exists.mp hsome
  -- whichever word was found, it starts as `word` does
  obtain ⟨v, hv, hfound⟩ := List.exists_of_findSome?_eq_some hrest'
  obtain ⟨part', hp', hs⟩ := afterWord?_eq_some_iff.mp hfound
  have hfits := hp.head_fits hne (List.cons_append : c :: t ++ rest = c :: (t ++ rest)).symm
  obtain rfl : v = word := h.eq_of_fits v hv word hw c (Spells.head_fits hp' (h.ne_empty v hv) hs) hfits
  rw [hrest', ← hfound, hafter]

theorem madeOf_of_afterAny? {s : List Char} (h : afterAny? words s = some rest) (hr : MadeOf words rest) :
    MadeOf words s := by
  obtain ⟨word, hw, hafter⟩ := List.exists_of_findSome?_eq_some h
  obtain ⟨part, hp, rfl⟩ := afterWord?_eq_some_iff.mp hafter
  exact .cons hw hp hr

theorem StartApart.exists_afterAny? (h : StartApart words) {s : List Char} (hs : MadeOf words s) (hne : s ≠ []) :
    ∃ rest, afterAny? words s = some rest ∧ MadeOf words rest := by
  cases hs with
  | nil => exact absurd rfl hne
  | cons hw hp hr => exact ⟨_, h.afterAny?_append hw hp, hr⟩

theorem StartApart.removeFrom_eq_nil_iff (h : StartApart words) {fuel : Nat} {s : List Char} (hf : s.length ≤ fuel) :
    removeFrom words fuel s = [] ↔ MadeOf words s := by
  fun_induction removeFrom words fuel s with
  | case1 s =>
    obtain rfl : s = [] := List.length_eq_zero_iff.mp (Nat.le_zero.mp hf)
    exact iff_of_true rfl .nil
  | case2 => exact iff_of_true rfl .nil
  | case3 fuel c s rest hafter ih =>
    obtain ⟨word, hw, hl⟩ := exists_mem_of_afterAny? hafter
    have hpos : word.length ≠ 0 := by simpa using h.ne_empty word hw
    rw [ih (by simp only [List.length_cons] at hl hf; omega)]
    refine ⟨madeOf_of_afterAny? hafter, fun hs => ?_⟩
    obtain ⟨rest', hrest', hmade⟩ := h.exists_afterAny? hs (List.cons_ne_nil c s)
    rw [hafter] at hrest'
    rwa [Option.some.inj hrest']
  | case4 fuel c s hafter ih =>
    refine iff_of_false (by simp) fun hs => ?_
    obtain ⟨rest, hrest, -⟩ := h.exists_afterAny? hs (List.cons_ne_nil c s)
    rw [hafter] at hrest
    cases hrest

theorem StartApart.removeAll_eq_nil_iff (h : StartApart words) {s : List Char} :
    removeAll words s = [] ↔ MadeOf words s :=
  h.removeFrom_eq_nil_iff (Nat.le_refl _)

end Words

/-! ## Case -/

namespace Text

theorem lowerSpellings_ne_nil : ∀ entry ∈ lowerSpellings, entry.2 ≠ [] := by
  decide

/-- No character vanishes in lower case. -/
theorem lowerCase_ne_nil (c : Char) : lowerCase c ≠ [] := by
  unfold lowerCase
  split
  · simp
  · exact mapCase_ne_nil lowerSpellings_ne_nil c

@[simp] theorem loweredAfter_eq_nil_iff {before s : List Char} : loweredAfter before s = [] ↔ s = [] := by
  cases s with
  | nil => simp [loweredAfter]
  | cons c s => grind [loweredAfter, lowerCase_ne_nil, List.append_eq_nil_iff]

@[simp] theorem lowered_eq_empty_iff {s : String} : lowered s = "" ↔ s = "" := by
  rw [lowered, ← String.toList_eq_nil_iff, String.toList_ofList, loweredAfter_eq_nil_iff, String.toList_eq_nil_iff]

theorem capitalized_ne_empty {s : String} (h : s ≠ "") : capitalized s ≠ "" := by
  have hlength := length_capitalized s
  have hpos : s.length ≠ 0 := by simpa using h
  intro he
  rw [he] at hlength
  exact hpos (Nat.le_zero.mp hlength)

end Text

/-! ## Resources -/

namespace Rules

open Words

theorem startApart_resourceWords : StartApart resourceWords where
  ne_empty := by decide
  eq_of_fits := by
    have hletters : ∀ w ∈ resourceWords, ∀ c, w.toList.head?.any (letterFits · c) = true →
        w.toList.head? = some c.toLower := by
      intro w hw c hc
      simp only [resourceWords, List.mem_cons, List.not_mem_nil, or_false] at hw
      obtain rfl | rfl | rfl | rfl | rfl := hw <;> simpa [letterFits, @eq_comm _ c.toLower] using hc
    have hstarts : ∀ v ∈ resourceWords, ∀ w ∈ resourceWords, v.toList.head? = w.toList.head? → v = w := by decide
    intro v hv w hw c hvc hwc
    exact hstarts v hv w hw ((hletters v hv c hvc).trans (hletters w hw c hwc).symm)

theorem stripResourceWords_eq_empty_iff {name : String} :
    stripResourceWords name = "" ↔ MadeOf resourceWords name.toList := by
  rw [stripResourceWords, Text.lowered_eq_empty_iff, ← startApart_resourceWords.removeAll_eq_nil_iff,
    ← String.toList_eq_nil_iff, String.toList_ofList]

theorem resourceOffers_of_madeOf {name : String} (h : isResourceFetch name = true)
    (hm : MadeOf resourceWords name.toList) :
    resourceOffers name = ["fetchData", "loadContent", "retrieveResources"] := by
  simp [resourceOffers, h, stripResourceWords_eq_empty_iff.mpr hm]

theorem resourceOffers_of_not_madeOf {name : String} (h : isResourceFetch name = true)
    (hm : ¬ MadeOf resourceWords name.toList) :
    resourceOffers name =
      ["fetch", "load", "retrieve"].map (· ++ Text.capitalized (stripResourceWords name)) := by
  have hne : stripResourceWords name ≠ "" := mt stripResourceWords_eq_empty_iff.mp hm
  simp [resourceOffers, h, hne]

/-- No verb starts another one, so that a verb with something after it is none. -/
theorem append_notMem_verbs {verb resource : String} (hv : verb ∈ ["fetch", "load", "retrieve"]) (hne : resource ≠ "") :
    verb ++ resource ∉ ["fetch", "load", "retrieve"] := by
  intro hmem
  have hstart : ∀ v ∈ ["fetch", "load", "retrieve"], ∀ w ∈ ["fetch", "load", "retrieve"],
      startsWith w v = true → w = v := by decide
  have hsame := hstart verb hv _ hmem (startsWith_iff.mpr ⟨resource, rfl⟩)
  exact hne (by simpa using hsame)

/-- Nothing is left of a name without the words for getting a resource exactly if it is made of these words.  A function
whose name has one of them is offered whole names in this case only, and otherwise the same resource after each of
three verbs; all of it is suggested unless it is the present name, and no verb alone is ever offered. -/
theorem resourceOffers_tell :
    (∀ name, stripResourceWords name = "" ↔ MadeOf resourceWords name.toList) ∧
      ∀ name kind file, kind.isFunctionLike = true → isResourceFetch name = true →
        (resourceOffers name = ["fetchData", "loadContent", "retrieveResources"] ↔ MadeOf resourceWords name.toList) ∧
        (¬ MadeOf resourceWords name.toList → ∃ resource, resource ≠ "" ∧
          resource = Text.capitalized (stripResourceWords name) ∧
          resourceOffers name = ["fetch" ++ resource, "load" ++ resource, "retrieve" ++ resource]) ∧
        ∀ offer ∈ resourceOffers name, offer ∉ ["fetch", "load", "retrieve"] ∧
          (offer ≠ name → offer ∈ (suggest name kind file).names) := by
  refine ⟨fun name => stripResourceWords_eq_empty_iff, fun name kind file hkind hfetch => ?_⟩
  have hsuggested : ∀ offer ∈ resourceOffers name, offer ≠ name → offer ∈ (suggest name kind file).names := by
    intro offer hoffer hne
    refine SuggestionSet.mem_names_ofList.mpr ⟨?_, hne⟩
    simp [offers, kindOffers, hkind, functionOffers, hoffer]
  by_cases hm : MadeOf resourceWords name.toList
  · rw [resourceOffers_of_madeOf hfetch hm] at hsuggested ⊢
    refine ⟨iff_of_true rfl hm, fun hn => absurd hm hn, fun offer hoffer => ⟨?_, hsuggested offer hoffer⟩⟩
    simp only [List.mem_cons, List.not_mem_nil, or_false] at hoffer
    obtain rfl | rfl | rfl := hoffer <;> decide
  · have hne : Text.capitalized (stripResourceWords name) ≠ "" :=
      Text.capitalized_ne_empty (mt stripResourceWords_eq_empty_iff.mp hm)
    rw [resourceOffers_of_not_madeOf hfetch hm] at hsuggested ⊢
    generalize Text.capitalized (stripResourceWords name) = resource at hne hsuggested ⊢
    refine ⟨iff_of_false ?_ hm, fun _ => ⟨resource, hne, rfl, rfl⟩, fun offer hoffer => ⟨?_, hsuggested offer hoffer⟩⟩
    · -- the first two offers would tell different resources
      intro he
      have hfirst : "fetch" ++ resource = "fetch" ++ "Data" := (List.cons.inj he).1
      obtain rfl : resource = "Data" := (String.append_right_inj "fetch").mp hfirst
      exact absurd he (by decide)
    · obtain ⟨verb, hverb, rfl⟩ := List.mem_map.mp hoffer
      exact append_notMem_verbs hverb hne

/-- Words in any case, a long s among their letters, and a name that goes on after them. -/
theorem resourceOffers_tell_of_words :
    IdentifierKind.isFunctionLike .function = true ∧ isResourceFetch "GETapiRequeſt" = true ∧
      MadeOf resourceWords "GETapiRequeſt".toList ∧
      resourceOffers "GETapiRequeſt" = ["fetchData", "loadContent", "retrieveResources"] ∧
      isResourceFetch "fetchUserApi" = true ∧ ¬ MadeOf resourceWords "fetchUserApi".toList ∧
      ∃ resource, resource ≠ "" ∧ resource = Text.capitalized (stripResourceWords "fetchUserApi") ∧
        resourceOffers "fetchUserApi" = ["fetch" ++ resource, "load" ++ resource, "retrieve" ++ resource] := by
  obtain ⟨hmade, hoffers⟩ := resourceOffers_tell
  have hwords : MadeOf resourceWords "GETapiRequeſt".toList := (hmade _).mp (by decide +kernel)
  have huser : ¬ MadeOf resourceWords "fetchUserApi".toList := mt (hmade _).mpr (by decide +kernel)
  exact ⟨rfl, by decide +kernel, hwords,
    (hoffers "GETapiRequeſt" .function {} rfl (by decide +kernel)).1.mpr hwords, by decide +kernel, huser,
    (hoffers "fetchUserApi" .function {} rfl (by decide +kernel)).2.1 huser⟩

end Rules

end NameAdvisor
