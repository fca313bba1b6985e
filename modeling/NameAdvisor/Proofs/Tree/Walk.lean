import NameAdvisor.Tree.Cursor
import Mathlib.Data.List.Induction
import Mathlib.Data.List.Lex

/-!
# Walking a tree

A walk of a tree ends, and has then been at every place of the tree exactly once: at a construct before its parts, and
at its parts in their order.

## Main definitions

* `Cursor.walkAfter`: how a walk goes on once it is through with a node.
* `Cursor.address`: the numbers of the parts on the way from the top of a tree to a place.
* `Tree.HasPlace`: the places that are reached from the top of a tree by going down.
-/

namespace NameAdvisor

namespace Cursor

/-- At most `n` nodes of a walk, from the one that follows `focus` and everything in it. -/
def walkAfter (n : Nat) (focus : Tree) (above : List Level) : List Cursor :=
  match following? focus above with
  | some d => walkFrom n d
  | none => []

theorem walkAfter_nil (n : Nat) (focus : Tree) : walkAfter n focus [] = [] := rfl

mutual

/-- A walk from a node passes the places of the node, and goes on after it. -/
theorem walkFrom_size_add (n : Nat) (above : List Level) (t : Tree) :
    walkFrom (t.size + n) ⟨t, above⟩ = t.places above ++ walkAfter n t above := by
  obtain ⟨k, r, s, cs⟩ := t
  rw [Tree.size, Nat.add_right_comm, Tree.places, List.cons_append]
  cases cs with
  | nil =>
    rw [Tree.sizeAll, Nat.zero_add]
    rfl
  | cons c cs => exact congrArg _ (walkFrom_sizeAll_add n k r s above [] c cs)
termination_by sizeOf t

/-- A walk from a part passes the places of this part and of those after it, and goes on after the construct. -/
theorem walkFrom_sizeAll_add (n : Nat) (k : NodeKind) (r : Option Role) (s : Span) (above : List Level)
    (before : List Tree) (c : Tree) (cs : List Tree) :
    walkFrom (Tree.sizeAll (c :: cs) + n) ⟨c, ⟨k, r, s, before, cs⟩ :: above⟩ =
      Tree.placesAmong k r s above before (c :: cs) ++
        walkAfter n (.node k r s (before.reverse ++ c :: cs)) above := by
  rw [Tree.sizeAll, Nat.add_assoc, walkFrom_size_add, Tree.placesAmong, List.append_assoc]
  refine congrArg _ ?_
  cases cs with
  | nil =>
    rw [Tree.sizeAll, Nat.zero_add, Tree.placesAmong]
    rfl
  | cons d cs =>
    have hrest := walkFrom_sizeAll_add n k r s above (c :: before) d cs
    rw [List.reverse_cons, List.append_assoc, List.singleton_append] at hrest
    exact hrest
termination_by sizeOf (c :: cs)

end

/-- A walk of a tree ends after all of its places: it does not go further however far it may. -/
theorem walkFrom_top {n : Nat} {t : Tree} (h : t.size ≤ n) : walkFrom n (top t) = t.places [] := by
  obtain ⟨more, rfl⟩ := Nat.exists_eq_add_of_le h
  rw [top, walkFrom_size_add, walkAfter_nil, List.append_nil]

theorem walk_eq_places (t : Tree) : walk t = t.places [] :=
  walkFrom_top (Nat.le_refl _)

end Cursor

/-! ## All places -/

/-- The places that are reached from the top of a tree by going down to a part, again and again. -/
inductive Tree.HasPlace (t : Tree) : Cursor → Prop
  | top : HasPlace t (Cursor.top t)
  | part {k : NodeKind} {r : Option Role} {s : Span} {before after : List Tree} {c : Tree} {above : List Level}
      (h : HasPlace t ⟨.node k r s (before.reverse ++ c :: after), above⟩) :
      HasPlace t ⟨c, ⟨k, r, s, before, after⟩ :: above⟩

namespace Tree

mutual

theorem HasPlace.of_mem_places {t u : Tree} {above : List Level} (h : t.HasPlace ⟨u, above⟩) {c : Cursor}
    (hc : c ∈ u.places above) : t.HasPlace c := by
  obtain ⟨k, r, s, cs⟩ := u
  rw [places] at hc
  obtain rfl | hc := List.mem_cons.mp hc
  · exact h
  · exact HasPlace.of_mem_placesAmong [] h hc

theorem HasPlace.of_mem_placesAmong {t : Tree} {k : NodeKind} {r : Option Role} {s : Span} {above : List Level}
    (before : List Tree) {cs : List Tree} (h : t.HasPlace ⟨.node k r s (before.reverse ++ cs), above⟩) {c : Cursor}
    (hc : c ∈ placesAmong k r s above before cs) : t.HasPlace c := by
  cases cs with
  | nil => cases hc
  | cons d cs =>
    rw [placesAmong] at hc
    obtain hc | hc := List.mem_append.mp hc
    · exact HasPlace.of_mem_places (.part h) hc
    · exact HasPlace.of_mem_placesAmong (d :: before) (by simpa using h) hc

end

theorem self_mem_places (t : Tree) (above : List Level) : ⟨t, above⟩ ∈ t.places above := by
  obtain ⟨k, r, s, cs⟩ := t
  rw [places]
  exact List.mem_cons_self

/-- The places of a part are among those of the parts around it. -/
theorem places_subset_placesAmong (k : NodeKind) (r : Option Role) (s : Span) (above : List Level)
    (passed before : List Tree) (c : Tree) (after : List Tree) :
    c.places (⟨k, r, s, before ++ passed, after⟩ :: above) ⊆
      placesAmong k r s above passed (before.reverse ++ c :: after) := by
  -- the parts on the way to `c` are passed from the first one on
  induction before using List.reverseRecOn generalizing passed with
  | nil =>
    rw [List.reverse_nil, List.nil_append, List.nil_append, placesAmong]
    exact List.subset_append_left ..
  | append_singleton before d ih =>
    rw [List.reverse_concat, List.append_assoc, List.singleton_append, List.cons_append, placesAmong]
    exact List.Subset.trans (ih (d :: passed)) (List.subset_append_right ..)

mutual

theorem mem_places_trans {t : Tree} {above : List Level} {c d : Cursor} (hc : c ∈ t.places above)
    (hd : d ∈ c.focus.places c.above) : d ∈ t.places above := by
  obtain ⟨k, r, s, cs⟩ := t
  rw [places] at hc ⊢
  obtain rfl | hc := List.mem_cons.mp hc
  · rwa [places] at hd
  · exact List.mem_cons_of_mem _ (mem_placesAmong_trans hc hd)

theorem mem_placesAmong_trans {k : NodeKind} {r : Option Role} {s : Span} {above : List Level} {before cs : List Tree}
    {c d : Cursor} (hc : c ∈ placesAmong k r s above before cs) (hd : d ∈ c.focus.places c.above) :
    d ∈ placesAmong k r s above before cs := by
  cases cs with
  | nil => cases hc
  | cons first cs =>
    rw [placesAmong] at hc ⊢
    obtain hc | hc := List.mem_append.mp hc
    · exact List.mem_append_left _ (mem_places_trans hc hd)
    · exact List.mem_append_right _ (mem_placesAmong_trans hc hd)

end

theorem mem_places_iff {t : Tree} {c : Cursor} : c ∈ t.places [] ↔ t.HasPlace c := by
  constructor
  · exact HasPlace.of_mem_places .top
  · intro h
    induction h with
    | top => exact self_mem_places t []
    | @part k r s before after c above h ih =>
      refine mem_places_trans ih ?_
      rw [places]
      refine List.mem_cons_of_mem _ (places_subset_placesAmong k r s above [] before c after ?_)
      rw [List.append_nil]
      exact self_mem_places c _

mutual

theorem length_places (t : Tree) (above : List Level) : (t.places above).length = t.size := by
  obtain ⟨k, r, s, cs⟩ := t
  rw [places, size, List.length_cons, length_placesAmong]

theorem length_placesAmong (k : NodeKind) (r : Option Role) (s : Span) (above : List Level) (before cs : List Tree) :
    (placesAmong k r s above before cs).length = sizeAll cs := by
  cases cs with
  | nil => rfl
  | cons c cs => rw [placesAmong, sizeAll, List.length_append, length_places, length_placesAmong]

end

end Tree

/-! ## The order of places -/

/-- The numbers of the parts on the way down through some constructs. -/
def addressOf (above : List Level) : List Nat :=
  (above.map fun l => l.before.length).reverse

@[simp] theorem addressOf_cons (l : Level) (above : List Level) :
    addressOf (l :: above) = addressOf above ++ [l.before.length] := by
  simp [addressOf]

/-- The numbers of the parts on the way from the top of a tree to a place.  A construct comes before its parts, and a
part before the next one, exactly if their addresses do. -/
def Cursor.address (c : Cursor) : List Nat :=
  addressOf c.above

namespace Tree

mutual

theorem exists_address_of_mem_places {t : Tree} {above : List Level} {c : Cursor} (h : c ∈ t.places above) :
    ∃ way, c.address = addressOf above ++ way := by
  obtain ⟨k, r, s, cs⟩ := t
  rw [places] at h
  obtain rfl | h := List.mem_cons.mp h
  · exact ⟨[], (List.append_nil _).symm⟩
  · obtain ⟨i, way, -, hway⟩ := exists_address_of_mem_placesAmong h
    exact ⟨i :: way, hway⟩

theorem exists_address_of_mem_placesAmong {k : NodeKind} {r : Option Role} {s : Span} {above : List Level}
    {before cs : List Tree} {c : Cursor} (h : c ∈ placesAmong k r s above before cs) :
    ∃ i way, before.length ≤ i ∧ c.address = addressOf above ++ i :: way := by
  cases cs with
  | nil => cases h
  | cons d cs =>
    rw [placesAmong] at h
    obtain h | h := List.mem_append.mp h
    · obtain ⟨way, hway⟩ := exists_address_of_mem_places h
      exact ⟨before.length, way, Nat.le_refl _, by simpa using hway⟩
    · obtain ⟨i, way, hi, hway⟩ := exists_address_of_mem_placesAmong h
      exact ⟨i, way, Nat.le_of_succ_le hi, hway⟩

end

mutual

theorem pairwise_address_places (t : Tree) (above : List Level) :
    (t.places above).Pairwise (·.address < ·.address) := by
  obtain ⟨k, r, s, cs⟩ := t
  rw [places]
  refine List.pairwise_cons.mpr ⟨fun c hc => ?_, pairwise_address_placesAmong k r s above [] cs⟩
  obtain ⟨i, way, -, hway⟩ := exists_address_of_mem_placesAmong hc
  have hlt : addressOf above ++ [] < addressOf above ++ i :: way := List.append_left_lt (List.nil_lt_cons i way)
  rwa [List.append_nil, ← hway] at hlt

theorem pairwise_address_placesAmong (k : NodeKind) (r : Option Role) (s : Span) (above : List Level)
    (before cs : List Tree) : (placesAmong k r s above before cs).Pairwise (·.address < ·.address) := by
  cases cs with
  | nil => exact .nil
  | cons c cs =>
    rw [placesAmong]
    refine List.pairwise_append.mpr
      ⟨pairwise_address_places c _, pairwise_address_placesAmong k r s above (c :: before) cs, fun a ha b hb => ?_⟩
    obtain ⟨way, ha⟩ := exists_address_of_mem_places ha
    obtain ⟨i, way', hi, hb⟩ := exists_address_of_mem_placesAmong hb
    rw [ha, hb, addressOf_cons, List.append_assoc]
    exact List.append_left_lt (List.cons_lt_cons_iff.mpr (.inl hi))

end

end Tree

end NameAdvisor
