import NameAdvisor.Proofs.Json.Overlay
import NameAdvisor.Json.Decode

/-!
# Reading records

A record is read from every object that carries its fields, whatever else the object holds.

## Main definitions

* `Json.Holds`: objects with some members among theirs.
-/

namespace NameAdvisor.Json

section Except

variable {ε α β : Type} {x : Except ε α} {b : β}

theorem bind_eq_ok_iff {f : α → Except ε β} : x >>= f = .ok b ↔ ∃ a, x = .ok a ∧ f a = .ok b := by
  cases x with
  | error e => simp [bind, Except.bind]
  | ok a => simp [bind, Except.bind]

theorem map_eq_ok_iff {f : α → β} : x.map f = .ok b ↔ ∃ a, x = .ok a ∧ f a = b := by
  cases x <;> simp [Except.map]

end Except

/-- The members `ks` whose values are scalars stand among `members`. -/
def Holds (members ks : Members) : Prop :=
  ∀ ⦃key : String⦄ ⦃v : Json⦄, v.isScalar → Members.find? key ks = some v → Members.find? key members = some v

/-- A value that carries an object with a scalar is an object that holds its scalars. -/
theorem Carries.exists_holds {j : Json} {ks : Members} (h : Carries j (.object ks)) (key : String) {v : Json}
    (hv : v.isScalar) (hk : Members.find? key ks = some v) : ∃ members, j = .object members ∧ Holds members ks := by
  have hlook : ∀ {key v}, Members.find? key ks = some v → look (.object ks) [key] = some v := fun hf =>
    look_cons_eq_some.mpr ⟨ks, _, rfl, hf, look_nil _⟩
  obtain ⟨members, w, rfl, -, -⟩ := look_cons_eq_some.mp (h hv (hlook hk))
  refine ⟨members, rfl, fun key v hv hf => ?_⟩
  obtain ⟨members', w, he, hw, hl⟩ := look_cons_eq_some.mp (h hv (hlook hf))
  cases he
  rw [look_nil] at hl
  rwa [Option.some.inj hl] at hw

theorem Decoder.word_nat {n : Nat} (h : n < Nat.pow 2 64) : Decoder.word (.nat n) = .ok n :=
  if_pos h

namespace Record

/-- Members pass the check of a record if their names differ and those with the name of a field can stand in it. -/
theorem checkMembers_eq_ok {fields : List Field} {members : Members} (hn : (Members.names members).Nodup)
    (h : ∀ f ∈ fields, ∀ v, Members.find? f.name members = some v → f.check v = .ok ()) {seen : List String}
    (hs : ∀ key ∈ seen, key ∉ Members.names members) : checkMembers fields seen members = .ok () := by
  -- along the members: the names that were seen are not among those that follow
  induction members generalizing seen with
  | nil => rfl
  | cons m rest ih =>
    obtain ⟨k, v⟩ := m
    obtain ⟨hk, hrest⟩ := List.nodup_cons.mp hn
    have htail : ∀ f ∈ fields, ∀ v, Members.find? f.name rest = some v → f.check v = .ok () := by
      intro f hf v hv
      have hne : f.name ≠ k := by
        rintro rfl
        exact hk (List.mem_map.mpr ⟨_, Members.mem_of_find? hv, rfl⟩)
      exact h f hf v (by rw [Members.find?_cons, if_neg hne, hv])
    rw [checkMembers]
    cases hf : fields.find? (·.name == k) with
    | none => exact ih hrest htail fun key hkey => List.not_mem_of_not_mem_cons (hs key hkey)
    | some field =>
      have hname : field.name = k := by simpa using List.find?_some hf
      have hcheck : field.check v = .ok () :=
        h field (List.mem_of_find?_eq_some hf) v (by rw [Members.find?_cons, if_pos hname])
      have hseen : seen.contains k = false := by
        simpa using fun hmem => hs k hmem List.mem_cons_self
      simp only [hseen, hcheck]
      refine ih hrest htail fun key hkey => ?_
      obtain rfl | hkey := List.mem_cons.mp hkey
      · exact hk
      · exact List.not_mem_of_not_mem_cons (hs key hkey)

/-- An object with tidy members is a record if its members can stand in the fields. -/
theorem ofJson_object {members : Members} (hm : Tidy (.object members)) (title : String) {fields : List Field}
    (h : ∀ f ∈ fields, ∀ v, Members.find? f.name members = some v → f.check v = .ok ()) :
    ofJson title fields (.object members) = .ok ⟨title, fields.length, members, false⟩ := by
  cases hm with
  | object ho _ => simp [ofJson, checkMembers_eq_ok ho.nodup h, Except.map]

theorem given_of_ofJson_object {title : String} {fields : List Field} {members : Members} {r : Record}
    (h : ofJson title fields (.object members) = .ok r) : r.given = members := by
  cases hc : checkMembers fields [] members with
  | error e => simp [ofJson, hc, Except.map] at h
  | ok u =>
    simp only [ofJson, hc, Except.map, Except.ok.injEq] at h
    rw [← h]

theorem given_of_ofJson_array {title : String} {fields : List Field} {items : List Json} {r : Record}
    (h : ofJson title fields (.array items) = .ok r) : r.given = (fields.map (·.name)).zip items := by
  cases hc : checkItems fields items with
  | error e => simp [ofJson, hc, bind, Except.bind] at h
  | ok u =>
    by_cases hl : fields.length < items.length
    · simp [ofJson, hc, hl, bind, Except.bind] at h
    · simp [ofJson, hc, hl, bind, Except.bind, pure, Except.pure] at h
      rw [← h]

end Record

end NameAdvisor.Json
