import NameAdvisor.Advisor
import NameAdvisor.Provider.Scripted
import NameAdvisor.Proofs.Fallback
import NameAdvisor.Proofs.Text.Legal

/-!
# Suggestions that are names

What is suggested for a name is a name again, with one exception: the conventions for components take a word for
state out of a name and offer the rest as it is, also where the rest starts with a digit.

## Main definitions

* `Rules.AllLegal`: offers that are all names.
* `Rules.OffersDigit`: the names for which that exception occurs.
-/

namespace NameAdvisor

/-! ## Offers -/

namespace Rules

variable {name : String}

theorem fits_afterStart? {start rest : String} (h : Fits name.toList) (hr : afterStart? name start = some rest) :
    Fits rest.toList := by
  obtain rfl := afterStart?_eq_some_iff.mp hr
  rw [String.toList_append, fits_append_iff] at h
  exact h.2

theorem legal_swapStart {old new : String} (hn : Legal new.toList) (h : Legal name.toList) :
    Legal (swapStart name old new).toList := by
  unfold swapStart
  split
  · next rest hr =>
    rw [String.toList_append]
    exact hn.append (fits_afterStart? h.fits hr)
  · exact h

theorem legal_substitute {words : List String} {new : String} (hn : Legal new.toList) (h : Legal name.toList) :
    Legal (substitute words new name).toList := by
  rw [substitute, String.toList_ofList]
  exact Words.legal_replaceFirst hn h

theorem fits_substitute {words : List String} {new : String} (hn : Fits new.toList) (h : Fits name.toList) :
    Fits (substitute words new name).toList := by
  rw [substitute, String.toList_ofList]
  exact Words.fits_replaceFirst hn h

/-- A name may go on with any other, capitalized. -/
theorem legal_append_capitalized {start : String} (hs : Legal start.toList) (h : Fits name.toList) :
    Legal (start ++ Text.capitalized name).toList := by
  rw [String.toList_append, Text.toList_capitalized]
  exact hs.append (Text.fits_capitalizedChars h)

theorem legal_append_ending {ending : String} (h : Legal name.toList) (he : Fits ending.toList) :
    Legal (name ++ ending).toList := by
  rw [String.toList_append]
  exact h.append he

theorem fits_stripResourceWords (h : Fits name.toList) : Fits (stripResourceWords name).toList := by
  apply Text.fits_lowered
  rw [String.toList_ofList]
  exact Words.fits_removeFrom h

/-- Offers that are all names. -/
def AllLegal (offers : List String) : Prop :=
  ∀ n ∈ offers, Legal n.toList

instance (offers : List String) : Decidable (AllLegal offers) :=
  List.decidableBAll _ offers

@[simp] theorem allLegal_nil : AllLegal [] :=
  List.forall_mem_nil _

@[simp] theorem allLegal_cons {offer : String} {offers : List String} :
    AllLegal (offer :: offers) ↔ Legal offer.toList ∧ AllLegal offers :=
  List.forall_mem_cons

@[simp] theorem allLegal_append {offers offers' : List String} :
    AllLegal (offers ++ offers') ↔ AllLegal offers ∧ AllLegal offers' :=
  List.forall_mem_append

theorem allLegal_ite {p : Prop} [Decidable p] {offers : List String} (h : AllLegal offers) :
    AllLegal (if p then offers else []) := by
  split
  · exact h
  · exact allLegal_nil

/-! ### Rule by rule -/

theorem allLegal_eventOffers (h : Legal name.toList) : AllLegal (eventOffers name) := by
  apply allLegal_ite
  refine allLegal_append.mpr ⟨?_, ?_⟩
  · simp only [eventVerbVariants, allLegal_cons]
    exact ⟨legal_substitute (by decide) h, legal_substitute (by decide) h,
      legal_substitute (by decide) h, allLegal_nil⟩
  · split
    · exact allLegal_nil
    · exact allLegal_cons.mpr ⟨legal_append_ending h (by decide), allLegal_nil⟩

theorem allLegal_accessorOffers (h : Legal name.toList) : AllLegal (accessorOffers name) := by
  apply allLegal_ite
  simp only [allLegal_cons]
  exact ⟨legal_swapStart (by decide) h, legal_swapStart (by decide) h, allLegal_nil⟩

theorem allLegal_mutatorOffers (h : Legal name.toList) : AllLegal (mutatorOffers name) := by
  apply allLegal_ite
  simp only [allLegal_cons]
  exact ⟨legal_swapStart (by decide) h, legal_swapStart (by decide) h, allLegal_nil⟩

theorem allLegal_resourceOffers (h : Legal name.toList) : AllLegal (resourceOffers name) := by
  apply allLegal_ite
  simp only
  split
  · decide
  · have hf := fits_stripResourceWords h.fits
    simp only [List.map_cons, List.map_nil, allLegal_cons]
    exact ⟨legal_append_capitalized (by decide) hf, legal_append_capitalized (by decide) hf,
      legal_append_capitalized (by decide) hf, allLegal_nil⟩

theorem allLegal_validationOffers (h : Legal name.toList) : AllLegal (validationOffers name) := by
  apply allLegal_ite
  simp only [allLegal_cons]
  exact ⟨legal_substitute (by decide) h,
    legal_append_ending (legal_substitute (by decide) h) (by decide),
    legal_append_ending (legal_substitute (by decide) h) (by decide), allLegal_nil⟩

theorem allLegal_initializationOffers (h : Legal name.toList) : AllLegal (initializationOffers name) := by
  apply allLegal_ite
  simp only [List.map_cons, List.map_nil, allLegal_cons]
  exact ⟨legal_substitute (by decide) h, legal_substitute (by decide) h,
    legal_substitute (by decide) h, allLegal_nil⟩

theorem allLegal_functionOffers (h : Legal name.toList) : AllLegal (functionOffers name) := by
  simp only [functionOffers, allLegal_append]
  exact ⟨⟨⟨⟨⟨allLegal_eventOffers h, allLegal_accessorOffers h⟩, allLegal_mutatorOffers h⟩,
    allLegal_resourceOffers h⟩, allLegal_validationOffers h⟩, allLegal_initializationOffers h⟩

theorem allLegal_dataOffers (name : String) : AllLegal (dataOffers name) := by
  apply allLegal_ite
  exact allLegal_append.mpr ⟨by decide, allLegal_ite (by decide)⟩

theorem allLegal_counterOffers (name : String) : AllLegal (counterOffers name) :=
  allLegal_ite (by decide)

theorem allLegal_flagOffers (h : Fits name.toList) : AllLegal (flagOffers name) := by
  apply allLegal_ite
  simp only [allLegal_cons]
  exact ⟨legal_append_capitalized (by decide) h, legal_append_capitalized (by decide) h, allLegal_nil⟩

theorem allLegal_shortNameOffers (h : Legal name.toList) : AllLegal (shortNameOffers name) := by
  apply allLegal_ite
  simp only [allLegal_cons]
  exact ⟨legal_append_ending h (by decide), legal_append_capitalized (by decide) h.fits, allLegal_nil⟩

theorem allLegal_variableOffers (h : Legal name.toList) : AllLegal (variableOffers name) := by
  simp only [variableOffers, allLegal_append]
  exact ⟨⟨⟨allLegal_dataOffers name, allLegal_counterOffers name⟩, allLegal_flagOffers h.fits⟩,
    allLegal_shortNameOffers h⟩

theorem allLegal_testingOffers (h : Legal name.toList) (kind : IdentifierKind) : AllLegal (testingOffers name kind) := by
  apply allLegal_ite
  have hf : Fits (stripTestWord name).toList := fits_substitute (by decide) h.fits
  simp only
  split
  · exact allLegal_nil
  · simp only [allLegal_cons]
    exact ⟨legal_append_capitalized (by decide) hf, legal_append_capitalized (by decide) hf,
      allLegal_nil⟩

/-! ## A digit after a word for state -/

/-- The name starts with a word for state, and goes on with a digit. -/
def digitAfterStateWord (name : String) : Bool :=
  (Words.afterAny? stateWords name.toList).any fun rest => rest.head?.any Char.isDigit

theorem isStateLike_of_digitAfterStateWord (h : digitAfterStateWord name = true) : isStateLike name = true := by
  have hs : (Words.afterAny? stateWords name.toList).isSome = true := by
    unfold digitAfterStateWord at h
    cases hw : Words.afterAny? stateWords name.toList with
    | none => simp [hw] at h
    | some rest => rfl
  unfold isStateLike mentions
  cases hn : name.toList with
  | nil => simpa [Words.occurs, hn] using hs
  | cons c s => simp [Words.occurs, ← hn, hs]

theorem toList_stripStateWord (name : String) :
    (stripStateWord name).toList = Words.replaceFirst stateWords [] name.toList := by
  simp [stripStateWord, substitute]

theorem stripStateWord_ne_empty (h : digitAfterStateWord name = true) : stripStateWord name ≠ "" := by
  intro he
  have hl := toList_stripStateWord name
  rw [he] at hl
  obtain ⟨rest, hw, hd⟩ := (Option.any_eq_true _ _).mp h
  have hr : Words.replaceFirst stateWords [] name.toList = rest := by
    cases hn : name.toList with
    | nil => simp [Words.replaceFirst, ← hn, hw]
    | cons c s => simp [Words.replaceFirst, ← hn, hw]
  rw [hr] at hl
  simp [← hl] at hd

/-- What is left of a name without its word for state is a name, or nothing, unless it starts with a digit. -/
theorem legal_stripStateWord_iff (h : Legal name.toList) (hne : stripStateWord name ≠ "") :
    Legal (stripStateWord name).toList ↔ digitAfterStateWord name = false := by
  have hne : Words.replaceFirst stateWords [] name.toList ≠ [] := by
    rw [← toList_stripStateWord]
    simpa using hne
  have hf : Fits (Words.replaceFirst stateWords [] name.toList) :=
    Words.fits_replaceFirst (List.forall_mem_nil _) h.fits
  obtain ⟨c, s, hn, hc, hs⟩ := h.exists_cons
  rw [toList_stripStateWord, hf.legal_iff hne, digitAfterStateWord, hn, Words.replaceFirst]
  cases hw : Words.afterAny? stateWords (c :: s) with
  | some rest => simp
  | none => simpa using (startsName_iff (fitsName_of_startsName hc)).mp hc

theorem legal_lowered_stripStateWord_iff (h : Legal name.toList) (hne : stripStateWord name ≠ "") :
    Legal (Text.lowered (stripStateWord name)).toList ↔ digitAfterStateWord name = false := by
  have hf : Fits (stripStateWord name).toList := fits_substitute (List.forall_mem_nil _) h.fits
  rw [Text.legal_lowered_iff hf, legal_stripStateWord_iff h hne]

theorem allLegal_reactOffers (h : Legal name.toList) {kind : IdentifierKind}
    (hd : kind.isFunctionLike = false → startsUpper name = false → digitAfterStateWord name = false) :
    AllLegal (reactOffers name kind) := by
  unfold reactOffers
  split
  · rw [allLegal_cons, Text.toList_capitalized]
    refine ⟨Text.legal_capitalizedChars h, allLegal_ite ?_⟩
    exact allLegal_cons.mpr ⟨legal_append_ending h (by decide), allLegal_nil⟩
  · next hupper =>
    split
    · exact allLegal_cons.mpr ⟨legal_append_capitalized (by decide) h.fits, allLegal_nil⟩
    · split
      · simp only [allLegal_cons]
        exact ⟨legal_append_capitalized (by decide) h.fits,
          legal_append_capitalized (by decide) h.fits, allLegal_nil⟩
      · split
        · next hstate =>
          obtain ⟨hk, -⟩ : kind.isFunctionLike = false ∧ _ := by simpa using hstate
          simp only
          split
          · decide
          · next hne =>
            have hl := (legal_lowered_stripStateWord_iff h hne).mpr (hd hk (by simpa using hupper))
            simp only [allLegal_cons]
            exact ⟨hl, legal_append_ending hl (by decide), allLegal_nil⟩
        · exact allLegal_nil

/-- Where a digit follows the word for state, the rest of the name is offered. -/
theorem mem_reactOffers_of_digit {kind : IdentifierKind} (hk : kind.isFunctionLike = false)
    (hu : startsUpper name = false) (hd : digitAfterStateWord name = true) :
    Text.lowered (stripStateWord name) ∈ reactOffers name kind := by
  simp [reactOffers, hk, hu, isStateLike_of_digitAfterStateWord hd, stripStateWord_ne_empty hd]

/-! ## All suggestions -/

/-- The conventions for components offer for the name what follows its word for state, and a digit follows. -/
def OffersDigit (name : String) (kind : IdentifierKind) (file : FileContext) : Prop :=
  file.domain.isReact = true ∧ kind.isFunctionLike = false ∧ startsUpper name = false ∧
    digitAfterStateWord name = true

instance (name : String) (kind : IdentifierKind) (file : FileContext) : Decidable (OffersDigit name kind file) :=
  inferInstanceAs (Decidable (_ ∧ _ ∧ _ ∧ _))

theorem allLegal_offers_iff (h : Legal name.toList) (kind : IdentifierKind) (file : FileContext) :
    AllLegal (offers name kind file) ↔ ¬ OffersDigit name kind file := by
  constructor
  · rintro hall ⟨hr, hk, hu, hd⟩
    have hmem : Text.lowered (stripStateWord name) ∈ offers name kind file := by
      simp [offers, domainOffers, hr, mem_reactOffers_of_digit hk hu hd]
    have := (legal_lowered_stripStateWord_iff h (stripStateWord_ne_empty hd)).mp (hall _ hmem)
    rw [hd] at this
    cases this
  · intro hno
    have hkind : AllLegal (kindOffers name kind) := by
      unfold kindOffers
      split
      · exact allLegal_functionOffers h
      · exact allLegal_variableOffers h
    have hdomain : AllLegal (domainOffers name kind file.domain) := by
      refine allLegal_append.mpr ⟨?_, allLegal_ite (allLegal_testingOffers h kind)⟩
      split
      · next hr =>
        refine allLegal_reactOffers h fun hk hu => ?_
        rw [← Bool.not_eq_true]
        exact fun hd => hno ⟨hr, hk, hu, hd⟩
      · exact allLegal_nil
    simp only [offers, allLegal_append]
    exact ⟨⟨hkind, hdomain⟩, allLegal_shortNameOffers h⟩

theorem allLegal_suggest_iff (h : Legal name.toList) (kind : IdentifierKind) (file : FileContext) :
    AllLegal (suggest name kind file).names ↔ ¬ OffersDigit name kind file := by
  rw [← allLegal_offers_iff h]
  constructor
  · intro hs n hn
    by_cases he : n = name
    · exact he ▸ h
    · exact hs n (SuggestionSet.mem_names_ofList.mpr ⟨hn, he⟩)
  · exact fun ho n hn => ho n (SuggestionSet.mem_names_ofList.mp hn).1

end Rules

namespace Fallback

open Rules

theorem allLegal_offers {name : String} (h : Legal name.toList) (kind : IdentifierKind) :
    AllLegal (if kind.isFunctionLike then functionOffers name else valueOffers name) := by
  split
  · simp only [functionOffers, allLegal_append, allLegal_cons]
    refine ⟨⟨⟨legal_append_capitalized (by decide) h.fits, legal_append_capitalized (by decide) h.fits,
      allLegal_nil⟩, allLegal_ite ?_⟩, ?_⟩
    · exact allLegal_cons.mpr ⟨legal_append_capitalized (by decide) h.fits, allLegal_nil⟩
    · split
      · next rest hr =>
        have hf := fits_afterStart? h.fits hr
        simp only [allLegal_cons, String.toList_append]
        exact ⟨Legal.append (by decide) hf, Legal.append (by decide) hf, allLegal_nil⟩
      · exact allLegal_nil
  · have hs : ∀ {ending : String}, Fits ending.toList → Legal (name ++ ending).toList := legal_append_ending h
    simp only [valueOffers, allLegal_append, allLegal_cons]
    refine ⟨⟨hs (by decide), hs (by decide), allLegal_nil⟩, allLegal_ite ?_⟩
    simp only [allLegal_cons]
    exact ⟨hs (by decide), hs (by decide), allLegal_nil⟩

theorem allLegal_suggest {name : String} (h : Legal name.toList) (kind : IdentifierKind) :
    AllLegal (suggest name kind).names := by
  rw [suggest_eq_ofList]
  exact fun n hn => allLegal_offers h kind n (SuggestionSet.mem_names_ofList.mp hn).1

end Fallback

namespace Advisor

open Rules

variable {π : Type} [NameSource π]

theorem suggestions_of_rules (providers : List π) (name : String) (kind : IdentifierKind) (context : String)
    (file : FileContext) : (resolve ⟨.rules, providers⟩ name kind context file).1.suggestions =
      if (Rules.suggest name kind file).names = [] then (Fallback.suggest name kind).names
      else (Rules.suggest name kind file).names := by
  simp [resolve, ask, report, SuggestionSet.isEmpty]

/-- For a name, all suggestions of the rules are names unless a digit is offered, and so are all suggestions of a
report that only uses rules. -/
theorem allLegal_suggestions_iff {name : String} (h : Legal name.toList) (kind : IdentifierKind) (context : String)
    (file : FileContext) (providers : List π) :
    (AllLegal (Rules.suggest name kind file).names ↔ ¬ OffersDigit name kind file) ∧
      (AllLegal (resolve ⟨.rules, providers⟩ name kind context file).1.suggestions ↔
        ¬ OffersDigit name kind file) := by
  have hrules := allLegal_suggest_iff h kind file
  refine ⟨hrules, ?_⟩
  rw [suggestions_of_rules]
  split
  · next hnone =>
    refine iff_of_true (Fallback.allLegal_suggest h kind) (hrules.mp ?_)
    rw [hnone]
    exact allLegal_nil
  · exact hrules

/-- A word for state inside the name, and a digit at its start, leave names. -/
theorem allLegal_suggestions_of_state_1 :
    let file : FileContext := { domain := .reactComponent }
    Legal "state_1".toList ∧ AllLegal (Rules.suggest "state_1" .variableBinding file).names ∧
      AllLegal (resolve (⟨.rules, []⟩ : Advisor Scripted) "state_1" .variableBinding "" file).1.suggestions := by
  intro file
  have hl : Legal "state_1".toList := by decide
  have hno : ¬ OffersDigit "state_1" .variableBinding file := by decide
  obtain ⟨hr, hs⟩ := allLegal_suggestions_iff hl .variableBinding "" file ([] : List Scripted)
  exact ⟨hl, hr.mpr hno, hs.mpr hno⟩

/-- A digit alone is suggested, by rule and in a report. -/
theorem digit_suggested_for_data1 :
    let file : FileContext := { domain := .reactComponent }
    Legal "data1".toList ∧ ¬ Legal "1".toList ∧ "1" ∈ (Rules.suggest "data1" .variableBinding file).names ∧
      "1" ∈ (resolve (⟨.rules, []⟩ : Advisor Scripted) "data1" .variableBinding "" file).1.suggestions := by
  decide +kernel

end Advisor

end NameAdvisor
