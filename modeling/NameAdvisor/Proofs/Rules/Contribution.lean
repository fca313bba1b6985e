import NameAdvisor.Rules.Suggest
import NameAdvisor.Proofs.Fallback
import NameAdvisor.Proofs.Text.Case

/-!
# What each convention contributes

A convention that applies to a name never offers just that name, so the rules suggest nothing for it exactly when no
convention applies.  Most offers are longer than the name; where a word of the name is replaced, or the offers do not
depend on the name at all, two of them differ.

## Main definitions

* `Rules.Convention`: the conventions.
* `Rules.Convention.applies`: what a convention takes.
* `Rules.Convention.offers`: what a convention offers.
-/

namespace NameAdvisor

/-! ## Replacing a word -/

namespace Words

theorem exists_mem_of_afterAny? {words : List String} {s rest : List Char} (h : afterAny? words s = some rest) :
    ∃ word ∈ words, s.length = word.length + rest.length := by
  obtain ⟨word, hw, ha⟩ := List.exists_of_findSome?_eq_some h
  refine ⟨word, hw, ?_⟩
  rw [← String.length_toList]
  exact length_of_afterWord? ha

/-- A word that occurs is taken out at its first place, whatever is put there. -/
theorem exists_replaceFirst_eq {words : List String} {s : List Char} (h : occurs words s = true) :
    ∃ before rest, ∃ word ∈ words, s.length = before.length + word.length + rest.length ∧
      ∀ new, replaceFirst words new s = before ++ new ++ rest := by
  induction s with
  | nil =>
    obtain ⟨rest, hr⟩ := Option.isSome_iff_exists.mp h
    obtain ⟨word, hw, hl⟩ := exists_mem_of_afterAny? hr
    exact ⟨[], rest, word, hw, by simpa using hl, fun new => by simp [replaceFirst, hr]⟩
  | cons c s ih =>
    cases ha : afterAny? words (c :: s) with
    | some rest =>
      obtain ⟨word, hw, hl⟩ := exists_mem_of_afterAny? ha
      exact ⟨[], rest, word, hw, by simpa using hl, fun new => by simp [replaceFirst, ha]⟩
    | none =>
      obtain ⟨before, rest, word, hw, hl, hnew⟩ := ih (by simpa [occurs, ha] using h)
      refine ⟨c :: before, rest, word, hw, ?_, fun new => by simp [replaceFirst, ha, hnew]⟩
      simp only [List.length_cons]
      omega

theorem occurs_append {words : List String} {t : List Char} (h : occurs words t = true) (s : List Char) :
    occurs words (s ++ t) = true := by
  induction s with
  | nil => exact h
  | cons c s ih => simp [occurs, ih]

end Words

namespace Rules

variable {name : String}

/-- However a word is replaced, the same one is, so that the length of what replaces it tells. -/
theorem exists_length_substitute {words : List String} (h : mentions words name = true) :
    ∃ word ∈ words, ∀ new, (substitute words new name).length + word.length = name.length + new.length := by
  obtain ⟨before, rest, word, hw, hl, hnew⟩ := Words.exists_replaceFirst_eq h
  refine ⟨word, hw, fun new => ?_⟩
  have hs : (substitute words new name).length = before.length + new.length + rest.length := by
    simp [substitute, hnew, Nat.add_assoc]
  rw [String.length_toList] at hl
  omega

/-- What replaces a word tells, by its length, one replacement from another. -/
theorem length_substitute_ne {words : List String} (h : mentions words name = true) {new new' : String}
    (hl : new.length ≠ new'.length) : (substitute words new name).length ≠ (substitute words new' name).length := by
  obtain ⟨word, -, hlength⟩ := exists_length_substitute h
  have h₁ := hlength new
  have h₂ := hlength new'
  omega

theorem length_swapStart {old : String} (h : startsWith name old = true) (new : String) :
    (swapStart name old new).length + old.length = name.length + new.length := by
  obtain ⟨rest, rfl⟩ := startsWith_iff.mp h
  simp only [swapStart_append, String.length_append]
  omega

/-! ## Offers that differ from the name -/

/-- Of two offers that differ, one differs from the name. -/
theorem exists_ne_of_mem {offers : List String} {a b : String} (ha : a ∈ offers) (hb : b ∈ offers) (h : a ≠ b)
    (name : String) : ∃ n ∈ offers, n ≠ name := by
  by_cases he : a = name
  · exact ⟨b, hb, fun hn => h (he.trans hn.symm)⟩
  · exact ⟨a, ha, he⟩

theorem exists_ne_of_length {offers : List String} {a b : String} (ha : a ∈ offers) (hb : b ∈ offers)
    (h : a.length ≠ b.length) (name : String) : ∃ n ∈ offers, n ≠ name :=
  exists_ne_of_mem ha hb (ne_of_apply_ne String.length h) name

theorem length_append_ne {a b : String} (h : a.length ≠ b.length) (rest : String) :
    (a ++ rest).length ≠ (b ++ rest).length := by
  simpa using h

theorem mentions_handle_of_endsWith (h : endsWith name "Handler" = true) : mentions ["handle"] name = true := by
  obtain ⟨before, hb⟩ := List.isSuffixOf_iff_suffix.mp h
  rw [mentions, ← hb]
  exact Words.occurs_append (by decide) before

/-- A name that ends as handlers do has a word that is replaced. -/
theorem exists_ne_eventOffers (h : isEventVerb name = true) : ∃ n ∈ eventOffers name, n ≠ name := by
  by_cases he : endsWith name "Handler" = true
  · refine ⟨substitute ["handle"] "on" name, by simp [eventOffers, h, eventVerbVariants], ?_⟩
    obtain ⟨word, hw, hl⟩ := exists_length_substitute (mentions_handle_of_endsWith he)
    obtain rfl := List.mem_singleton.mp hw
    refine ne_of_apply_ne String.length ?_
    have := hl "on"
    have h₁ : "handle".length = 6 := rfl
    have h₂ : "on".length = 2 := rfl
    omega
  · exact ⟨name ++ "Handler", by simp [eventOffers, h, he], Text.append_ne_self (by decide) name⟩

theorem exists_ne_of_swapStart {offers : List String} {old new : String} (hs : startsWith name old = true)
    (hm : swapStart name old new ∈ offers) (hl : old.length ≠ new.length) : ∃ n ∈ offers, n ≠ name := by
  refine ⟨_, hm, ne_of_apply_ne String.length ?_⟩
  have := length_swapStart hs new
  omega

theorem exists_ne_accessorOffers (h : isAccessor name = true) : ∃ n ∈ accessorOffers name, n ≠ name := by
  have hs : startsWith name "get" = true := (Bool.and_eq_true_iff.mp h).1
  have hm : swapStart name "get" "retrieve" ∈ accessorOffers name := by simp [accessorOffers, h]
  exact exists_ne_of_swapStart hs hm (by decide)

theorem exists_ne_mutatorOffers (h : isMutator name = true) : ∃ n ∈ mutatorOffers name, n ≠ name := by
  have hs : startsWith name "set" = true := (Bool.and_eq_true_iff.mp h).1
  have hm : swapStart name "set" "update" ∈ mutatorOffers name := by simp [mutatorOffers, h]
  exact exists_ne_of_swapStart hs hm (by decide)

theorem exists_ne_resourceOffers (h : isResourceFetch name = true) : ∃ n ∈ resourceOffers name, n ≠ name := by
  by_cases hr : stripResourceWords name = ""
  · exact exists_ne_of_mem (a := "fetchData") (b := "loadContent") (by simp [resourceOffers, h, hr])
      (by simp [resourceOffers, h, hr]) (by decide) name
  · exact exists_ne_of_length (a := "fetch" ++ Text.capitalized (stripResourceWords name))
      (b := "load" ++ Text.capitalized (stripResourceWords name)) (by simp [resourceOffers, h, hr])
      (by simp [resourceOffers, h, hr]) (length_append_ne (by decide) _) name

theorem exists_ne_validationOffers (h : isValidation name = true) : ∃ n ∈ validationOffers name, n ≠ name := by
  have hl : (replaceValidationVerb name "is").length ≠ (replaceValidationVerb name "ensure").length :=
    length_substitute_ne h (by decide)
  exact exists_ne_of_length (a := replaceValidationVerb name "is" ++ "Valid")
    (b := replaceValidationVerb name "ensure" ++ "Valid") (by simp [validationOffers, h])
    (by simp [validationOffers, h]) (length_append_ne hl _) name

theorem exists_ne_initializationOffers (h : isInitialization name = true) :
    ∃ n ∈ initializationOffers name, n ≠ name :=
  exists_ne_of_length (a := replaceInitVerb name "setup") (b := replaceInitVerb name "create")
    (by simp [initializationOffers, h]) (by simp [initializationOffers, h]) (length_substitute_ne h (by decide)) name

theorem exists_ne_dataOffers (h : isDataHolder name = true) : ∃ n ∈ dataOffers name, n ≠ name :=
  exists_ne_of_mem (a := "payload") (b := "response") (by simp [dataOffers, h]) (by simp [dataOffers, h]) (by decide)
    name

theorem exists_ne_counterOffers (h : isCounter name = true) : ∃ n ∈ counterOffers name, n ≠ name :=
  exists_ne_of_mem (a := "counter") (b := "index") (by simp [counterOffers, h]) (by simp [counterOffers, h])
    (by decide) name

theorem exists_ne_flagOffers (h : isUnprefixedFlag name = true) : ∃ n ∈ flagOffers name, n ≠ name :=
  ⟨"is" ++ Text.capitalized name, by simp [flagOffers, h], Text.append_capitalized_ne (by decide) name⟩

theorem exists_ne_shortNameOffers (h : isShort name = true) : ∃ n ∈ shortNameOffers name, n ≠ name :=
  ⟨name ++ "Value", by simp [shortNameOffers, h], Text.append_ne_self (by decide) name⟩

/-- A name that starts with a capital letter is offered as it is, and with an ending if it is long enough. -/
theorem exists_ne_reactOffers_of_startsUpper (kind : IdentifierKind) (hu : startsUpper name = true)
    (he : endsWith name "Component" = false) (hc : 4 < charCount name) : ∃ n ∈ reactOffers name kind, n ≠ name :=
  ⟨name ++ "Component", by simp [reactOffers, hu, he, hc], Text.append_ne_self (by decide) name⟩

/-- A function gets a prefix that it has not: a name does not start both as hooks and as handlers do. -/
theorem exists_ne_reactOffers_of_function {kind : IdentifierKind} (hk : kind.isFunctionLike = true)
    (hu : startsUpper name = false) (hf : startsWith name "use" = false ∨ isUiEvent name = true) :
    ∃ n ∈ reactOffers name kind, n ≠ name := by
  by_cases huse : startsWith name "use" = true
  · have hui : isUiEvent name = true := by simpa [huse] using hf
    have hhandle : startsWith name "handle" = false := by
      obtain ⟨rest, rfl⟩ := startsWith_iff.mp huse
      simp [startsWith, List.isPrefixOf]
    exact ⟨"handle" ++ Text.capitalized name, by simp [reactOffers, hu, hk, huse, hui, hhandle],
      Text.append_capitalized_ne (by decide) name⟩
  · exact ⟨"use" ++ Text.capitalized name, by simp [reactOffers, hu, hk, huse],
      Text.append_capitalized_ne (by decide) name⟩

theorem exists_ne_reactOffers_of_state {kind : IdentifierKind} (hk : kind.isFunctionLike = false)
    (hu : startsUpper name = false) (hs : isStateLike name = true) : ∃ n ∈ reactOffers name kind, n ≠ name := by
  by_cases hb : stripStateWord name = ""
  · exact exists_ne_of_mem (a := "value") (b := "state") (by simp [reactOffers, hu, hk, hs, hb])
      (by simp [reactOffers, hu, hk, hs, hb]) (by decide) name
  · refine exists_ne_of_mem (a := Text.lowered (stripStateWord name) ++ "State")
      (b := Text.lowered (stripStateWord name)) ?_ ?_ (Text.append_ne_self (by decide) _) name
    · simp [reactOffers, hu, hk, hs, hb]
    · simp [reactOffers, hu, hk, hs, hb]

theorem exists_ne_testingOffers {kind : IdentifierKind} (hk : kind.isFunctionLike = true)
    (ht : isTestLike name = true) (hb : stripTestWord name ≠ "") : ∃ n ∈ testingOffers name kind, n ≠ name :=
  exists_ne_of_length (a := "should" ++ Text.capitalized (stripTestWord name))
    (b := "it" ++ Text.capitalized (stripTestWord name)) (by simp [testingOffers, hk, ht, hb])
    (by simp [testingOffers, hk, ht, hb]) (length_append_ne (by decide) _) name

/-! ## Conventions -/

/-- A convention for names. -/
inductive Convention where
  /-- An event handler says what it does. -/
  | event
  /-- It reads a value. -/
  | accessor
  /-- It writes a value. -/
  | mutator
  /-- It gets a resource. -/
  | resource
  | validation
  | initialization
  | dataHolder
  | counter
  /-- It holds a flag and does not say so first. -/
  | flag
  /-- A component says that it is one. -/
  | component
  /-- A hook starts as hooks do. -/
  | hook
  /-- It handles an event of the user interface. -/
  | uiEvent
  /-- It holds state. -/
  | state
  /-- A test says what should be. -/
  | test
  /-- The name is very short. -/
  | shortName
  deriving DecidableEq, Repr

namespace Convention

/-- Whether the convention applies to `name` in a file of `domain`. -/
def applies (name : String) (kind : IdentifierKind) (domain : Domain) : Convention → Bool
  | event => kind.isFunctionLike && isEventVerb name
  | accessor => kind.isFunctionLike && isAccessor name
  | mutator => kind.isFunctionLike && isMutator name
  | resource => kind.isFunctionLike && isResourceFetch name
  | validation => kind.isFunctionLike && isValidation name
  | initialization => kind.isFunctionLike && isInitialization name
  | dataHolder => !kind.isFunctionLike && isDataHolder name
  | counter => !kind.isFunctionLike && isCounter name
  | flag => !kind.isFunctionLike && isUnprefixedFlag name
  | component => domain.isReact && startsUpper name && decide (4 < charCount name) && !endsWith name "Component"
  | hook => domain.isReact && !startsUpper name && kind.isFunctionLike && !startsWith name "use"
  | uiEvent => domain.isReact && !startsUpper name && kind.isFunctionLike && isUiEvent name
  | state => domain.isReact && !startsUpper name && !kind.isFunctionLike && isStateLike name
  | test => decide (domain = .testing) && kind.isFunctionLike && isTestLike name && decide (stripTestWord name ≠ "")
  | shortName => isShort name

/-- What the convention offers; those for components, hooks and state share one list, and one of them is heard. -/
def offers (name : String) (kind : IdentifierKind) : Convention → List String
  | event => eventOffers name
  | accessor => accessorOffers name
  | mutator => mutatorOffers name
  | resource => resourceOffers name
  | validation => validationOffers name
  | initialization => initializationOffers name
  | dataHolder => dataOffers name
  | counter => counterOffers name
  | flag => flagOffers name
  | component | hook | uiEvent | state => reactOffers name kind
  | test => testingOffers name kind
  | shortName => shortNameOffers name

variable {kind : IdentifierKind} {domain : Domain}

/-- A convention that applies has an offer other than the name. -/
theorem exists_ne_offers {c : Convention} (h : c.applies name kind domain = true) :
    ∃ n ∈ c.offers name kind, n ≠ name := by
  cases c <;> simp only [applies, Bool.and_eq_true, Bool.not_eq_true', decide_eq_true_eq] at h
  case event => exact exists_ne_eventOffers h.2
  case accessor => exact exists_ne_accessorOffers h.2
  case mutator => exact exists_ne_mutatorOffers h.2
  case resource => exact exists_ne_resourceOffers h.2
  case validation => exact exists_ne_validationOffers h.2
  case initialization => exact exists_ne_initializationOffers h.2
  case dataHolder => exact exists_ne_dataOffers h.2
  case counter => exact exists_ne_counterOffers h.2
  case flag => exact exists_ne_flagOffers h.2
  case component =>
    obtain ⟨⟨⟨-, hu⟩, hc⟩, he⟩ := h
    exact exists_ne_reactOffers_of_startsUpper kind hu he hc
  case hook =>
    obtain ⟨⟨⟨-, hu⟩, hk⟩, hs⟩ := h
    exact exists_ne_reactOffers_of_function hk hu (.inl hs)
  case uiEvent =>
    obtain ⟨⟨⟨-, hu⟩, hk⟩, he⟩ := h
    exact exists_ne_reactOffers_of_function hk hu (.inr he)
  case state =>
    obtain ⟨⟨⟨-, hu⟩, hk⟩, hs⟩ := h
    exact exists_ne_reactOffers_of_state hk hu hs
  case test =>
    obtain ⟨⟨⟨-, hk⟩, ht⟩, hb⟩ := h
    exact exists_ne_testingOffers hk ht hb
  case shortName => exact exists_ne_shortNameOffers h

/-- What a convention that applies offers is among all offers. -/
theorem mem_offers_of_applies {file : FileContext} {c : Convention} (h : c.applies name kind file.domain = true)
    {n : String} (hn : n ∈ c.offers name kind) : n ∈ Rules.offers name kind file := by
  cases c <;> simp only [applies, Bool.and_eq_true, Bool.not_eq_true', decide_eq_true_eq] at h <;>
    simp only [offers] at hn <;>
    simp [Rules.offers, kindOffers, functionOffers, variableOffers, domainOffers, h, hn]

end Convention

/-! ## Names to which no convention applies -/

section NoConvention

variable {kind : IdentifierKind} {domain : Domain}

theorem functionOffers_eq_nil (h : ∀ c : Convention, c.applies name kind domain = false)
    (hk : kind.isFunctionLike = true) : functionOffers name = [] := by
  have hevent : isEventVerb name = false := by simpa [Convention.applies, hk] using h .event
  have haccessor : isAccessor name = false := by simpa [Convention.applies, hk] using h .accessor
  have hmutator : isMutator name = false := by simpa [Convention.applies, hk] using h .mutator
  have hresource : isResourceFetch name = false := by simpa [Convention.applies, hk] using h .resource
  have hvalidation : isValidation name = false := by simpa [Convention.applies, hk] using h .validation
  have hinit : isInitialization name = false := by simpa [Convention.applies, hk] using h .initialization
  simp [functionOffers, eventOffers, accessorOffers, mutatorOffers, resourceOffers, validationOffers,
    initializationOffers, hevent, haccessor, hmutator, hresource, hvalidation, hinit]

theorem shortNameOffers_eq_nil (h : ∀ c : Convention, c.applies name kind domain = false) :
    shortNameOffers name = [] := by
  have hshort : isShort name = false := h .shortName
  simp [shortNameOffers, hshort]

theorem variableOffers_eq_nil (h : ∀ c : Convention, c.applies name kind domain = false)
    (hk : kind.isFunctionLike = false) : variableOffers name = [] := by
  have hdata : isDataHolder name = false := by simpa [Convention.applies, hk] using h .dataHolder
  have hcounter : isCounter name = false := by simpa [Convention.applies, hk] using h .counter
  have hflag : isUnprefixedFlag name = false := by simpa [Convention.applies, hk] using h .flag
  simp [variableOffers, dataOffers, counterOffers, flagOffers, shortNameOffers_eq_nil h, hdata, hcounter, hflag]

theorem capitalized_of_startsUpper (h : startsUpper name = true) : Text.capitalized name = name := by
  rw [Text.capitalized, Text.capitalizedChars_of_isUpper h, String.ofList_toList]

/-- A name that starts with a capital letter is still offered in capitalized form, which is the name itself. -/
theorem eq_name_of_mem_reactOffers (h : ∀ c : Convention, c.applies name kind domain = false)
    (hd : domain.isReact = true) {n : String} (hn : n ∈ reactOffers name kind) : n = name := by
  have hhook := h .hook
  have huiEvent := h .uiEvent
  have hstate := h .state
  by_cases hu : startsUpper name = true
  · have hlong : endsWith name "Component" = false → charCount name ≤ 4 := by
      have := h .component
      grind [Convention.applies]
    have hcap := capitalized_of_startsUpper hu
    grind [reactOffers]
  · grind [reactOffers, Convention.applies]

theorem testingOffers_eq_nil (h : ∀ c : Convention, c.applies name kind .testing = false) :
    testingOffers name kind = [] := by
  have htest := h .test
  grind [testingOffers, Convention.applies]

end NoConvention

/-- Where no convention applies the name itself is all that can be offered. -/
theorem eq_name_of_mem_offers {kind : IdentifierKind} {file : FileContext}
    (h : ∀ c : Convention, c.applies name kind file.domain = false) {n : String} (hn : n ∈ offers name kind file) :
    n = name := by
  have hkind : kindOffers name kind = [] := by
    unfold kindOffers
    split
    · next hk => exact functionOffers_eq_nil h hk
    · next hk => exact variableOffers_eq_nil h (by simpa using hk)
  have hdomain : n ∈ domainOffers name kind file.domain := by
    simpa [offers, hkind, shortNameOffers_eq_nil h] using hn
  rcases List.mem_append.mp hdomain with hreact | htesting
  · split at hreact
    · next hd => exact eq_name_of_mem_reactOffers h hd hreact
    · cases hreact
  · split at htesting
    · next hd =>
      rw [hd] at h
      rw [testingOffers_eq_nil h] at htesting
      cases htesting
    · cases htesting

/-- The rules suggest nothing exactly when no convention applies to the name, and each convention that applies has a
name among the suggestions. -/
theorem names_suggest_eq_nil_iff (name : String) (kind : IdentifierKind) (file : FileContext) :
    ((suggest name kind file).names = [] ↔ ∀ c : Convention, c.applies name kind file.domain = false) ∧
      ∀ c : Convention, c.applies name kind file.domain = true →
        ∃ n ∈ c.offers name kind, n ≠ name ∧ n ∈ (suggest name kind file).names := by
  have hcontributes : ∀ c : Convention, c.applies name kind file.domain = true →
      ∃ n ∈ c.offers name kind, n ≠ name ∧ n ∈ (suggest name kind file).names := by
    intro c hc
    obtain ⟨n, hn, hne⟩ := Convention.exists_ne_offers hc
    exact ⟨n, hn, hne, SuggestionSet.mem_names_ofList.mpr ⟨Convention.mem_offers_of_applies hc hn, hne⟩⟩
  refine ⟨⟨fun hnil c => ?_, fun hnone => ?_⟩, hcontributes⟩
  · by_contra hc
    obtain ⟨n, -, -, hmem⟩ := hcontributes c (by simpa using hc)
    simp [hnil] at hmem
  · refine List.eq_nil_iff_forall_not_mem.mpr fun n hn => ?_
    obtain ⟨hoffer, hne⟩ := SuggestionSet.mem_names_ofList.mp hn
    exact hne (eq_name_of_mem_offers hnone hoffer)

end Rules

end NameAdvisor
