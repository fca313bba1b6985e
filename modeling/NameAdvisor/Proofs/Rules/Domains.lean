import NameAdvisor.Proofs.Rules.Contribution

/-!
# Suggestions under the conventions of a domain

What is suggested in a file of no special domain is suggested in every other file too, in the same order: the offers of
a domain come between others, and none of them is one of the longer names for a very short name that follow.

## Main definitions

* `Domain.mostOffers`: how many names the conventions of a domain offer at most.
-/

namespace NameAdvisor

/-- How many names the conventions of a domain offer at most. -/
def Domain.mostOffers : Domain → Nat
  | reactComponent | reactHooks => 3
  | testing => 2
  | api | general => 0

namespace Rules

variable {name : String} {kind : IdentifierKind}

/-! ## How much a domain offers -/

theorem length_reactOffers (name : String) (kind : IdentifierKind) : (reactOffers name kind).length ≤ 3 := by
  grind [reactOffers]

theorem length_testingOffers (name : String) (kind : IdentifierKind) : (testingOffers name kind).length ≤ 2 := by
  grind [testingOffers]

theorem length_domainOffers (name : String) (kind : IdentifierKind) (domain : Domain) :
    (domainOffers name kind domain).length ≤ domain.mostOffers := by
  cases domain with
  | reactComponent | reactHooks => 
    simpa [domainOffers, Domain.isReact, Domain.mostOffers] using length_reactOffers name kind
  | testing => simpa [domainOffers, Domain.isReact, Domain.mostOffers] using length_testingOffers name kind
  | api | general => simp [domainOffers, Domain.isReact, Domain.mostOffers]

/-! ## Very short names -/

/-- A name is at least as long as a word in it. -/
theorem exists_length_le_of_mentions {words : List String} (h : mentions words name = true) :
    ∃ word ∈ words, word.length ≤ name.length := by
  obtain ⟨word, hw, hl⟩ := exists_length_substitute h
  refine ⟨word, hw, ?_⟩
  have := hl ""
  have hempty : "".length = 0 := rfl
  omega

theorem length_lt_of_isShort (h : isShort name = true) : name.length < 4 := by
  simp only [isShort, charCount, String.length_toList, Bool.and_eq_true, decide_eq_true_eq] at h
  exact h.1

theorem not_mentions_of_isShort (h : isShort name = true) {words : List String}
    (hw : ∀ word ∈ words, 4 ≤ word.length) : mentions words name = false := by
  rw [← Bool.not_eq_true]
  intro hm
  obtain ⟨word, hmem, hle⟩ := exists_length_le_of_mentions hm
  have := hw word hmem
  have := length_lt_of_isShort h
  omega

/-- A name that does not start with `use` does not do so with `Value` at its end either: `use` holds no capital. -/
theorem use_append_ne_append_value (h : startsWith name "use" = false) (other : String) :
    "use" ++ other ≠ name ++ "Value" := by
  intro he
  have hchars : "use".toList ++ other.toList = name.toList ++ "Value".toList := by
    rw [← String.toList_append, he, String.toList_append]
  have hnot : ¬ "use".toList <+: name.toList := by
    rw [← List.isPrefixOf_iff_prefix, ← startsWith, h]
    decide
  obtain ⟨rest, hname, -⟩ | ⟨rest, huse, hvalue⟩ := List.append_eq_append_iff.mp hchars
  · exact hnot ⟨rest, hname.symm⟩
  · cases rest with
    | nil => exact hnot ⟨[], by simpa using huse⟩
    | cons c rest =>
      obtain rfl : 'V' = c := (List.cons.inj hvalue).1
      have hmem : 'V' ∈ "use".toList := by simp [huse]
      exact absurd hmem (by decide)

/-- A very short name that stands for something called is offered as a hook at most, or as it is. -/
theorem eq_of_mem_reactOffers_of_isShort (h : isShort name = true) (hk : kind.isFunctionLike = true) {n : String}
    (hn : n ∈ reactOffers name kind) :
    n = name ∨ startsWith name "use" = false ∧ n = "use" ++ Text.capitalized name := by
  have hui : isUiEvent name = false := not_mentions_of_isShort h (by decide)
  have hl : ¬ 4 < charCount name := by
    have := length_lt_of_isShort h
    simp only [charCount, String.length_toList]
    omega
  by_cases hu : startsUpper name = true
  · have hcap := capitalized_of_startsUpper hu
    grind [reactOffers]
  · grind [reactOffers]

/-- What both a domain and the convention for very short names offer is offered before, or is the present name. -/
theorem mem_kindOffers_or_eq {domain : Domain} {n : String} (hd : n ∈ domainOffers name kind domain)
    (hs : n ∈ shortNameOffers name) : n ∈ kindOffers name kind ∨ n = name := by
  have hshort : isShort name = true := by grind [shortNameOffers]
  cases hk : kind.isFunctionLike with
  | false => exact .inl (by simp [kindOffers, hk, variableOffers, hs])
  | true =>
    have htest : isTestLike name = false := not_mentions_of_isShort hshort (by decide)
    have hreact : n ∈ reactOffers name kind := by grind [domainOffers, testingOffers]
    obtain hn | ⟨hu, rfl⟩ := eq_of_mem_reactOffers_of_isShort hshort hk hreact
    · exact .inr hn
    · have hvalue := use_append_ne_append_value hu (Text.capitalized name)
      have htemp : "use" ++ Text.capitalized name ≠ "temp" ++ Text.capitalized name := by simp
      simp [shortNameOffers, hshort, hvalue, htemp] at hs

/-- What the rules suggest in a file of no special domain they suggest in every file, in the same order; the
conventions of components and hooks add at most three names, those of tests two, and those of network interfaces
none. -/
theorem general_sublist_suggest (name : String) (kind : IdentifierKind) (file : FileContext) :
    let general := suggest name kind { file with domain := .general }
    general.names.Sublist (suggest name kind file).names ∧
      (suggest name kind file).names.length ≤ general.names.length + file.domain.mostOffers := by
  intro general
  have hcommon : ∀ n ∈ domainOffers name kind file.domain, n ∈ shortNameOffers name →
      n ∈ kindOffers name kind ∨ n = name := fun n => mem_kindOffers_or_eq
  obtain ⟨new, later, hlength, hgeneral, hspecial⟩ := SuggestionSet.names_ofList_between hcommon
  have hnone : domainOffers name kind .general = [] := by simp [domainOffers, Domain.isReact]
  have hmost := length_domainOffers name kind file.domain
  simp only [general, suggest, offers, hnone, List.append_nil, hgeneral, hspecial]
  constructor
  · exact (List.sublist_append_left _ new).append (List.Sublist.refl later)
  · simp only [List.length_append]
    omega

/-- A domain can add all three. -/
example : (suggest "status" .variableBinding { domain := .reactHooks }).names = ["value", "state", "data"] ∧
    (suggest "status" .variableBinding {}).names = [] := by
  decide

end Rules

end NameAdvisor
