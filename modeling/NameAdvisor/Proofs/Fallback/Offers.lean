import NameAdvisor.Proofs.Fallback

/-!
# Every offer of last resort counts

The offers of last resort for a function start with different letters, and those for a value end in different words.
So none of them repeats another one, and since they are longer than the name none of them is the name: whatever is
offered is suggested, and the names that would be put in its place are never needed.

## Main definitions

* `Fallback.offers`: what is offered before repetitions are left out.
-/

namespace NameAdvisor.Fallback

open SuggestionSet

/-- The offers of last resort. -/
def offers (name : String) (kind : IdentifierKind) : List String :=
  if kind.isFunctionLike then functionOffers name else valueOffers name

/-! ## Functions -/

/-- Besides two offers for every name there is one for events and there are two for what starts with `get`. -/
theorem exists_functionOffers_eq (name : String) : ∃ event access : List String,
    functionOffers name =
        ["process" ++ Text.capitalized name, "handle" ++ Text.capitalized name] ++ event ++ access ∧
      ((∃ word ∈ ["click", "change", "submit"], word.toList <:+: name.toList) →
        event = ["on" ++ Text.capitalized name]) ∧
      ((∀ word ∈ ["click", "change", "submit"], ¬ word.toList <:+: name.toList) → event = []) ∧
      (∀ rest, name = "get" ++ rest → access = ["fetch" ++ rest, "retrieve" ++ rest]) ∧
      ((∀ rest, name ≠ "get" ++ rest) → access = []) := by
  have hevent : eventWords.any (Text.contains name) = true ↔
      ∃ word ∈ ["click", "change", "submit"], word.toList <:+: name.toList := by
    simp only [List.any_eq_true, Text.contains_iff_infix, eventWords]
  refine ⟨_, _, rfl, fun hword => ?_, fun hnone => ?_, fun rest hrest => ?_, fun hnone => ?_⟩
  · rw [if_pos (hevent.mpr hword)]
  · refine if_neg fun hany => ?_
    obtain ⟨word, hmem, hword⟩ := hevent.mp hany
    exact hnone word hmem hword
  · rw [Rules.afterStart?_eq_some_iff.mpr hrest]
  · cases hget : Rules.afterStart? name "get" with
    | none => rfl
    | some rest => exact absurd (Rules.afterStart?_eq_some_iff.mp hget) (hnone rest)

/-- The letters that the offers for a function start with, each once at most. -/
theorem initials_functionOffers (name : String) :
    ((functionOffers name).map fun offer => offer.toList.head?).Sublist
      [some 'p', some 'h', some 'o', some 'f', some 'r'] := by
  unfold functionOffers
  cases eventWords.any (Text.contains name) <;> cases Rules.afterStart? name "get" <;> simp

theorem nodup_functionOffers (name : String) : (functionOffers name).Nodup :=
  ((initials_functionOffers name).nodup (by decide)).of_map _

theorem notMem_functionOffers (name : String) : name ∉ functionOffers name := by
  have hne : ∀ start : String, start.length ≠ 0 → name ≠ start ++ Text.capitalized name :=
    fun start h => (Text.append_capitalized_ne h name).symm
  have haccess : ∀ rest, Rules.afterStart? name "get" = some rest →
      name ≠ "fetch" ++ rest ∧ name ≠ "retrieve" ++ rest := by
    intro rest hrest
    rw [Rules.afterStart?_eq_some_iff.mp hrest]
    simp
  -- with an event word or without, and with `get` at the start or without
  unfold functionOffers
  cases eventWords.any (Text.contains name) <;> cases hget : Rules.afterStart? name "get" <;> simp_all

theorem length_functionOffers (name : String) :
    2 ≤ (functionOffers name).length ∧ (functionOffers name).length ≤ 5 := by
  have hmost := (initials_functionOffers name).length_le
  obtain ⟨event, access, heq, -⟩ := exists_functionOffers_eq name
  simp only [List.length_map, List.length_cons, List.length_nil] at hmost
  simp only [heq, List.length_append, List.length_cons, List.length_nil] at hmost ⊢
  omega

/-! ## Values -/

theorem nodup_valueOffers (name : String) : (valueOffers name).Nodup := by
  unfold valueOffers
  split <;> simp

theorem notMem_valueOffers (name : String) : name ∉ valueOffers name := by
  have hne : ∀ ending : String, ending.length ≠ 0 → name ≠ name ++ ending :=
    fun ending h => (Text.append_ne_self h name).symm
  unfold valueOffers
  split <;> simp [hne]

theorem length_valueOffers (name : String) : 2 ≤ (valueOffers name).length ∧ (valueOffers name).length ≤ 5 := by
  unfold valueOffers
  split <;> simp

/-! ## Suggestions -/

theorem nodup_offers (name : String) (kind : IdentifierKind) : (offers name kind).Nodup := by
  unfold offers
  split
  · exact nodup_functionOffers name
  · exact nodup_valueOffers name

theorem notMem_offers (name : String) (kind : IdentifierKind) : name ∉ offers name kind := by
  unfold offers
  split
  · exact notMem_functionOffers name
  · exact notMem_valueOffers name

theorem length_offers (name : String) (kind : IdentifierKind) :
    2 ≤ (offers name kind).length ∧ (offers name kind).length ≤ 5 := by
  unfold offers
  split
  · exact length_functionOffers name
  · exact length_valueOffers name

theorem names_suggest (name : String) (kind : IdentifierKind) : (suggest name kind).names = offers name kind := by
  rw [suggest_eq_ofList]
  exact names_ofList_eq_self (nodup_offers name kind) (notMem_offers name kind)

/-- The suggestions of last resort for any name, exactly.  None of the offers is left out, as a repetition or as the
name itself, so there are two to five of them and nothing is put in their place. -/
theorem suggest_exactly (name : String) (kind : IdentifierKind) :
    let names := (suggest name kind).names
    let cap := Text.capitalized name
    (kind.isFunctionLike = true → ∃ event access : List String,
        names = ["process" ++ cap, "handle" ++ cap] ++ event ++ access ∧
          ((∃ word ∈ ["click", "change", "submit"], word.toList <:+: name.toList) → event = ["on" ++ cap]) ∧
          ((∀ word ∈ ["click", "change", "submit"], ¬ word.toList <:+: name.toList) → event = []) ∧
          (∀ rest, name = "get" ++ rest → access = ["fetch" ++ rest, "retrieve" ++ rest]) ∧
          ((∀ rest, name ≠ "get" ++ rest) → access = [])) ∧
      (kind.isFunctionLike = false → names =
        [name ++ "Value", name ++ "Data"] ++ if name.length ≤ 3 then [name ++ "Item", name ++ "Element"] else []) ∧
      names.Nodup ∧ name ∉ names ∧ 2 ≤ names.length ∧ names.length ≤ 5 ∧
      (ofList name (offers name kind)).isEmpty = false := by
  intro names cap
  have hnames : names = offers name kind := names_suggest name kind
  rw [hnames]
  refine ⟨fun hk => ?_, fun hk => ?_, nodup_offers name kind, notMem_offers name kind, (length_offers name kind).1,
    (length_offers name kind).2, ?_⟩
  · rw [offers, if_pos hk]
    exact exists_functionOffers_eq name
  · simp only [offers, hk, valueOffers, Rules.charCount, String.length_toList, Bool.false_eq_true, if_false]
  · rw [← Bool.not_eq_true, SuggestionSet.isEmpty_iff]
    exact ofList_offers_ne_nil name kind

end NameAdvisor.Fallback
