import NameAdvisor.Json.Merge

/-!
# The members of an object

## Main definitions

* `Json.Members.Ordered`: members in strict order of their names.
* `Json.Members.names`: the names of members.
-/

namespace NameAdvisor.Json

/-- Under a name that is given once the value of that name is found. -/
theorem lookup_of_mem {α : Type} {given : List (String × α)} (hn : (given.map Prod.fst).Nodup) {m : String × α}
    (hm : m ∈ given) : given.lookup m.1 = some m.2 := by
  induction given with
  | nil => cases hm
  | cons first given ih =>
    obtain ⟨hfirst, hrest⟩ := List.nodup_cons.mp hn
    obtain rfl | hm := List.mem_cons.mp hm
    · exact List.lookup_cons_self
    · have hne : m.1 ≠ first.1 := fun he => hfirst (he ▸ List.mem_map_of_mem hm)
      rw [List.lookup_cons, beq_eq_false_iff_ne.mpr hne]
      exact ih hrest hm

namespace Members

/-- The members are in strict order of their names. -/
def Ordered (members : Members) : Prop :=
  members.Pairwise (·.1 < ·.1)

def names (members : Members) : List String :=
  members.map Prod.fst

@[simp] theorem names_nil : names [] = [] := rfl
@[simp] theorem names_cons (m : String × Json) (rest : Members) : names (m :: rest) = m.1 :: names rest := rfl

theorem lt_of_not_lt_of_ne {a b : String} (h : ¬ a < b) (hne : a ≠ b) : b < a :=
  Std.lt_of_le_of_ne (Std.not_lt.mp h) (Ne.symm hne)

theorem Ordered.nodup {members : Members} (h : Ordered members) : (names members).Nodup := by
  refine List.pairwise_map.mpr (h.imp ?_)
  rintro a b hlt he
  rw [he] at hlt
  exact Std.lt_irrefl hlt

theorem mem_insert {key : String} {value : Json} {members : Members} {m : String × Json}
    (h : m ∈ insert key value members) : m = (key, value) ∨ m ∈ members := by
  induction members with
  | nil => exact .inl (List.mem_singleton.mp h)
  | cons m' rest ih =>
    obtain ⟨k, v⟩ := m'
    unfold insert at h
    split at h
    · exact List.mem_cons.mp h
    · split at h
      · exact (List.mem_cons.mp h).imp_right (List.mem_cons_of_mem _)
      · obtain rfl | h := List.mem_cons.mp h
        · exact .inr List.mem_cons_self
        · exact (ih h).imp_right (List.mem_cons_of_mem _)

/-- Putting in a member keeps the order. -/
theorem Ordered.insert {members : Members} (h : Ordered members) (key : String) (value : Json) :
    Ordered (insert key value members) := by
  induction members with
  | nil => exact List.pairwise_singleton _ _
  | cons m rest ih =>
    obtain ⟨k, v⟩ := m
    obtain ⟨hk, hrest⟩ := List.pairwise_cons.mp h
    unfold Members.insert
    split
    · next hlt =>
      refine List.pairwise_cons.mpr ⟨fun m hm => ?_, h⟩
      obtain rfl | hm := List.mem_cons.mp hm
      · exact hlt
      · exact Std.lt_trans hlt (hk m hm)
    · next hlt =>
      split
      · next he =>
        subst he
        exact List.pairwise_cons.mpr ⟨hk, hrest⟩
      · next hne =>
        refine List.pairwise_cons.mpr ⟨fun m hm => ?_, ih hrest⟩
        obtain rfl | hm := mem_insert hm
        · exact lt_of_not_lt_of_ne hlt hne
        · exact hk m hm

theorem ordered_foldl_insert {acc : Members} (h : Ordered acc) (members : Members) :
    Ordered (members.foldl (fun acc m => insert m.1 m.2 acc) acc) := by
  induction members generalizing acc with
  | nil => exact h
  | cons m rest ih => exact ih (h.insert m.1 m.2)

theorem ordered_sorted (members : Members) : Ordered (sorted members) :=
  ordered_foldl_insert List.Pairwise.nil members

theorem find?_cons_self (key : String) (value : Json) (rest : Members) :
    find? key ((key, value) :: rest) = some value := by
  rw [find?_cons, if_pos rfl]

theorem find?_eq_none_of_notMem {key : String} {members : Members} (h : key ∉ names members) :
    find? key members = none := by
  induction members with
  | nil => rfl
  | cons m rest ih =>
    obtain ⟨k, v⟩ := m
    rw [find?_cons, if_neg (List.ne_of_not_mem_cons h), ih (List.not_mem_of_not_mem_cons h)]

theorem mem_of_find? {key : String} {value : Json} {members : Members} (h : find? key members = some value) :
    (key, value) ∈ members := by
  induction members with
  | nil => cases h
  | cons m rest ih =>
    obtain ⟨k, v⟩ := m
    rw [find?_cons] at h
    split at h
    · next he =>
      cases h
      exact he ▸ List.mem_cons_self
    · exact List.mem_cons_of_mem _ (ih h)

theorem find?_of_mem {key : String} {value : Json} {members : Members} (hn : (names members).Nodup)
    (h : (key, value) ∈ members) : find? key members = some value :=
  lookup_of_mem hn h

theorem find?_foldl_insert {members : Members} (hn : (names members).Nodup) (key : String) (acc : Members) :
    find? key (members.foldl (fun acc m => insert m.1 m.2 acc) acc) =
      (find? key members).or (find? key acc) := by
  induction members generalizing acc with
  | nil => rfl
  | cons m rest ih =>
    obtain ⟨k, v⟩ := m
    obtain ⟨hk, hrest⟩ := List.nodup_cons.mp hn
    rw [List.foldl_cons, ih hrest, find?_cons]
    by_cases he : key = k
    · subst he
      simp [find?_eq_none_of_notMem hk]
    · simp [he, find?_insert_of_ne he]

/-- Ordering members whose names differ changes no value. -/
theorem find?_sorted {members : Members} (hn : (names members).Nodup) (key : String) :
    find? key (sorted members) = find? key members := by
  rw [sorted, find?_foldl_insert hn, find?_nil, Option.or_none]

end Members

end NameAdvisor.Json
