import NameAdvisor.Fallback
import NameAdvisor.Proofs.SuggestionSet

/-!
# Names of last resort

There are always some: the first offer is longer than the name that it is for, so it cannot be dropped.
-/

namespace NameAdvisor

namespace Text

theorem upperSpellings_ne_nil : ∀ entry ∈ upperSpellings, entry.2 ≠ [] := by
  decide

theorem mapCase_ne_nil {runs : List LetterRun} {spellings : List (Nat × List Nat)}
    (h : ∀ entry ∈ spellings, entry.2 ≠ []) (c : Char) : mapCase runs spellings c ≠ [] := by
  unfold mapCase
  split
  · simp
  · split
    · next ns hns =>
      obtain ⟨l₁, l₂, he, -⟩ := List.lookup_eq_some_iff.1 hns
      have := h (c.toNat, ns) (by simp [he])
      simpa using this
    · simp

/-- No character vanishes in upper case. -/
theorem upperCase_ne_nil (c : Char) : upperCase c ≠ [] := by
  unfold upperCase
  split
  · simp
  · exact mapCase_ne_nil upperSpellings_ne_nil c

theorem length_capitalizedChars (s : List Char) : s.length ≤ (capitalizedChars s).length := by
  cases s with
  | nil => simp
  | cons c s =>
    have := List.length_pos_iff.2 (upperCase_ne_nil c)
    simp only [capitalizedChars, List.length_append, List.length_cons]
    omega

theorem length_capitalized (s : String) : s.length ≤ (capitalized s).length := by
  simpa [← String.length_toList] using length_capitalizedChars s.toList

theorem append_capitalized_ne {start : String} (h : start.length ≠ 0) (s : String) : start ++ capitalized s ≠ s := by
  refine ne_of_apply_ne String.length ?_
  have := length_capitalized s
  rw [String.length_append]
  omega

theorem append_ne_self {ending : String} (h : ending.length ≠ 0) (s : String) : s ++ ending ≠ s := by
  refine ne_of_apply_ne String.length ?_
  rw [String.length_append]
  omega

end Text

namespace Fallback

open SuggestionSet

/-- The offers for any name leave some that are new, so nothing more is ever needed. -/
theorem ofList_offers_ne_nil (name : String) (kind : IdentifierKind) :
    (ofList name (if kind.isFunctionLike then functionOffers name else valueOffers name)).names ≠ [] := by
  split
  · exact ofList_cons_ne_nil (Text.append_capitalized_ne (by decide) name) _
  · exact ofList_cons_ne_nil (Text.append_ne_self (by decide) name) _

theorem suggest_eq_ofList (name : String) (kind : IdentifierKind) :
    suggest name kind = ofList name (if kind.isFunctionLike then functionOffers name else valueOffers name) := by
  have he := (isEmpty_iff _).not.2 (ofList_offers_ne_nil name kind)
  rw [suggest]
  exact if_neg he

theorem suggest_ne_nil (name : String) (kind : IdentifierKind) : (suggest name kind).names ≠ [] := by
  rw [suggest_eq_ofList]
  exact ofList_offers_ne_nil name kind

theorem sound_suggest (name : String) (kind : IdentifierKind) : (suggest name kind).Sound := by
  rw [suggest_eq_ofList]
  exact sound_ofList _ _

@[simp] theorem current_suggest (name : String) (kind : IdentifierKind) : (suggest name kind).current = name := by
  rw [suggest_eq_ofList, current_ofList]

end Fallback

end NameAdvisor
