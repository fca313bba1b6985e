import NameAdvisor.Advisor
import NameAdvisor.Proofs.Fallback
import NameAdvisor.Proofs.Text.Lines

/-!
# The characters of suggestions

Whatever conventions apply to a name, what they offer is put together from parts of the name, in another case perhaps,
and from words of letters.  So the offers hold no character of a kind that the name does not hold.

## Main definitions

* `Rules.AllWithin`: offers that are all in a class of characters.
-/

namespace NameAdvisor

open Text

namespace Rules

variable {P : Char → Prop} {name : String}

/-- Offers whose characters are all in the class `P`. -/
def AllWithin (P : Char → Prop) (offers : List String) : Prop :=
  ∀ s ∈ offers, Within P s

@[simp] theorem allWithin_nil : AllWithin P [] :=
  List.forall_mem_nil _

@[simp] theorem allWithin_cons {offer : String} {offers : List String} :
    AllWithin P (offer :: offers) ↔ Within P offer ∧ AllWithin P offers :=
  List.forall_mem_cons

@[simp] theorem allWithin_append {offers offers' : List String} :
    AllWithin P (offers ++ offers') ↔ AllWithin P offers ∧ AllWithin P offers' :=
  List.forall_mem_append

theorem allWithin_ite {p : Prop} [Decidable p] {offers offers' : List String} (h : AllWithin P offers)
    (h' : AllWithin P offers') : AllWithin P (if p then offers else offers') := by
  split
  · exact h
  · exact h'

theorem within_afterStart? {start rest : String} (h : Within P name) (hr : afterStart? name start = some rest) :
    Within P rest := by
  obtain rfl := afterStart?_eq_some_iff.mp hr
  exact (within_append.mp h).2

theorem within_swapStart {old new : String} (hn : Within P new) (h : Within P name) :
    Within P (swapStart name old new) := by
  unfold swapStart
  split
  · next rest hr => exact within_append.mpr ⟨hn, within_afterStart? h hr⟩
  · exact h

theorem subset_of_afterAny? {words : List String} {cs rest : List Char} (h : Words.afterAny? words cs = some rest) :
    rest ⊆ cs :=
  (Words.suffix_of_afterAny? h).subset

theorem within_substitute {words : List String} {new : String} (hn : Within P new) (h : Within P name) :
    Within P (substitute words new name) := by
  rw [substitute, within_ofList]
  unfold Within at hn h
  generalize name.toList = cs at h
  fun_induction Words.replaceFirst words new.toList cs with
  | case1 rest hr => exact List.forall_mem_append.mpr ⟨hn, fun c hc => h c (subset_of_afterAny? hr hc)⟩
  | case2 => exact List.forall_mem_nil _
  | case3 c cs rest hr => exact List.forall_mem_append.mpr ⟨hn, fun c' hc => h c' (subset_of_afterAny? hr hc)⟩
  | case4 c cs hr ih =>
    obtain ⟨hc, hcs⟩ := List.forall_mem_cons.mp h
    exact List.forall_mem_cons.mpr ⟨hc, ih hcs⟩

theorem removeFrom_subset (words : List String) (fuel : Nat) (cs : List Char) :
    Words.removeFrom words fuel cs ⊆ cs := by
  fun_induction Words.removeFrom words fuel cs with
  | case1 => exact List.Subset.refl _
  | case2 => exact List.Subset.refl _
  | case3 fuel c cs rest hr ih => exact fun x hx => subset_of_afterAny? hr (ih hx)
  | case4 fuel c cs hr ih => exact List.cons_subset_cons c ih

section Offers

variable (hP : CaseClosed P) (h : Within P name)
include hP

theorem within_append_capitalized {start : String} (hs : Fits start.toList) (h : Within P name) :
    Within P (start ++ capitalized name) :=
  within_append.mpr ⟨hP.literal hs, hP.capitalized h⟩

theorem within_append_ending {ending : String} (h : Within P name) (he : Fits ending.toList) :
    Within P (name ++ ending) :=
  within_append.mpr ⟨h, hP.literal he⟩

theorem allWithin_literals {offers : List String} (ho : ∀ s ∈ offers, Fits s.toList) : AllWithin P offers :=
  fun s hs => hP.literal (ho s hs)

include h

theorem within_stripResourceWords : Within P (stripResourceWords name) :=
  hP.lowered (h.of_subset (removeFrom_subset _ _ _))

theorem within_substitute_literal {words : List String} {new : String} (hn : Fits new.toList) :
    Within P (substitute words new name) :=
  within_substitute (hP.literal hn) h

/-! ### Conventions for functions -/

theorem allWithin_functionOffers : AllWithin P (functionOffers name) := by
  have hevent : AllWithin P (eventOffers name) := by
    refine allWithin_ite (allWithin_append.mpr ⟨?_, allWithin_ite allWithin_nil ?_⟩) allWithin_nil
    · simp only [eventVerbVariants, allWithin_cons, allWithin_nil, and_true]
      exact ⟨within_substitute_literal hP h (by decide), within_substitute_literal hP h (by decide),
        within_substitute_literal hP h (by decide)⟩
    · simpa using within_append_ending hP h (by decide)
  have haccess : AllWithin P (accessorOffers name) := by
    refine allWithin_ite ?_ allWithin_nil
    simp only [allWithin_cons, allWithin_nil, and_true]
    exact ⟨within_swapStart (hP.literal (by decide)) h, within_swapStart (hP.literal (by decide)) h⟩
  have hmutate : AllWithin P (mutatorOffers name) := by
    refine allWithin_ite ?_ allWithin_nil
    simp only [allWithin_cons, allWithin_nil, and_true]
    exact ⟨within_swapStart (hP.literal (by decide)) h, within_swapStart (hP.literal (by decide)) h⟩
  have hresource : AllWithin P (resourceOffers name) := by
    have hs := within_stripResourceWords hP h
    refine allWithin_ite (allWithin_ite (allWithin_literals hP (by decide)) ?_) allWithin_nil
    simp only [List.map_cons, List.map_nil, allWithin_cons, allWithin_nil, and_true]
    exact ⟨within_append_capitalized hP (by decide) hs, within_append_capitalized hP (by decide) hs,
      within_append_capitalized hP (by decide) hs⟩
  have hvalidate : AllWithin P (validationOffers name) := by
    refine allWithin_ite ?_ allWithin_nil
    simp only [checkToValidate, replaceValidationVerb, allWithin_cons, allWithin_nil, and_true]
    exact ⟨within_substitute_literal hP h (by decide),
      within_append_ending hP (within_substitute_literal hP h (by decide)) (by decide),
      within_append_ending hP (within_substitute_literal hP h (by decide)) (by decide)⟩
  have hinit : AllWithin P (initializationOffers name) := by
    refine allWithin_ite ?_ allWithin_nil
    simp only [replaceInitVerb, List.map_cons, List.map_nil, allWithin_cons, allWithin_nil, and_true]
    exact ⟨within_substitute_literal hP h (by decide), within_substitute_literal hP h (by decide),
      within_substitute_literal hP h (by decide)⟩
  simp only [functionOffers, allWithin_append]
  exact ⟨⟨⟨⟨⟨hevent, haccess⟩, hmutate⟩, hresource⟩, hvalidate⟩, hinit⟩

/-! ### Conventions for variables -/

theorem allWithin_shortNameOffers : AllWithin P (shortNameOffers name) := by
  refine allWithin_ite ?_ allWithin_nil
  simp only [allWithin_cons, allWithin_nil, and_true]
  exact ⟨within_append_ending hP h (by decide), within_append_capitalized hP (by decide) h⟩

theorem allWithin_variableOffers : AllWithin P (variableOffers name) := by
  have hdata : AllWithin P (dataOffers name) :=
    allWithin_ite (allWithin_append.mpr ⟨allWithin_literals hP (by decide),
      allWithin_ite (allWithin_literals hP (by decide)) allWithin_nil⟩) allWithin_nil
  have hcount : AllWithin P (counterOffers name) :=
    allWithin_ite (allWithin_literals hP (by decide)) allWithin_nil
  have hflag : AllWithin P (flagOffers name) := by
    refine allWithin_ite ?_ allWithin_nil
    simp only [allWithin_cons, allWithin_nil, and_true]
    exact ⟨within_append_capitalized hP (by decide) h, within_append_capitalized hP (by decide) h⟩
  simp only [variableOffers, allWithin_append]
  exact ⟨⟨⟨hdata, hcount⟩, hflag⟩, allWithin_shortNameOffers hP h⟩

/-! ### Conventions of a domain -/

theorem allWithin_reactOffers (kind : IdentifierKind) : AllWithin P (reactOffers name kind) := by
  have hbase : Within P (lowered (stripStateWord name)) :=
    hP.lowered (within_substitute_literal hP h (by decide))
  refine allWithin_ite (allWithin_cons.mpr ⟨hP.capitalized h, allWithin_ite ?_ allWithin_nil⟩) ?_
  · simpa using within_append_ending hP h (by decide)
  refine allWithin_ite ?_ (allWithin_ite ?_ (allWithin_ite (allWithin_ite ?_ ?_) allWithin_nil))
  · simpa using within_append_capitalized hP (by decide) h
  · simp only [allWithin_cons, allWithin_nil, and_true]
    exact ⟨within_append_capitalized hP (by decide) h, within_append_capitalized hP (by decide) h⟩
  · exact allWithin_literals hP (by decide)
  · simp only [allWithin_cons, allWithin_nil, and_true]
    exact ⟨hbase, within_append_ending hP hbase (by decide)⟩

theorem allWithin_testingOffers (kind : IdentifierKind) : AllWithin P (testingOffers name kind) := by
  have hbase : Within P (stripTestWord name) := within_substitute_literal hP h (by decide)
  refine allWithin_ite (allWithin_ite allWithin_nil ?_) allWithin_nil
  simp only [allWithin_cons, allWithin_nil, and_true]
  exact ⟨within_append_capitalized hP (by decide) hbase, within_append_capitalized hP (by decide) hbase⟩

/-- What the conventions offer for a name is in every class that the name is in. -/
theorem allWithin_offers (kind : IdentifierKind) (file : FileContext) : AllWithin P (offers name kind file) := by
  have hkind : AllWithin P (kindOffers name kind) :=
    allWithin_ite (allWithin_functionOffers hP h) (allWithin_variableOffers hP h)
  have hdomain : AllWithin P (domainOffers name kind file.domain) :=
    allWithin_append.mpr ⟨allWithin_ite (allWithin_reactOffers hP h kind) allWithin_nil,
      allWithin_ite (allWithin_testingOffers hP h kind) allWithin_nil⟩
  simp only [offers, allWithin_append]
  exact ⟨⟨hkind, hdomain⟩, allWithin_shortNameOffers hP h⟩

theorem allWithin_suggest (kind : IdentifierKind) (file : FileContext) : AllWithin P (suggest name kind file).names :=
  fun s hs => allWithin_offers hP h kind file s (SuggestionSet.mem_names_ofList.mp hs).1

end Offers

end Rules

namespace Fallback

open Rules

theorem allWithin_suggest_fallback {P : Char → Prop} (hP : CaseClosed P) {name : String} (h : Within P name)
    (kind : IdentifierKind) : AllWithin P (suggest name kind).names := by
  have hfunction : AllWithin P (functionOffers name) := by
    simp only [functionOffers, allWithin_append, allWithin_cons, allWithin_nil, and_true]
    refine ⟨⟨⟨within_append_capitalized hP (by decide) h, within_append_capitalized hP (by decide) h⟩,
      allWithin_ite ?_ allWithin_nil⟩, ?_⟩
    · simpa using within_append_capitalized hP (by decide) h
    · split
      · next rest hr =>
        have hrest := within_afterStart? h hr
        simp only [allWithin_cons, allWithin_nil, and_true, within_append]
        exact ⟨⟨hP.literal (by decide), hrest⟩, hP.literal (by decide), hrest⟩
      · exact allWithin_nil
  have hvalue : AllWithin P (valueOffers name) := by
    simp only [valueOffers, allWithin_append, allWithin_cons, allWithin_nil, and_true]
    refine ⟨⟨within_append_ending hP h (by decide), within_append_ending hP h (by decide)⟩,
      allWithin_ite ?_ allWithin_nil⟩
    simp only [allWithin_cons, allWithin_nil, and_true]
    exact ⟨within_append_ending hP h (by decide), within_append_ending hP h (by decide)⟩
  rw [suggest_eq_ofList]
  exact fun s hs => allWithin_ite hfunction hvalue s (SuggestionSet.mem_names_ofList.mp hs).1

end Fallback

end NameAdvisor
