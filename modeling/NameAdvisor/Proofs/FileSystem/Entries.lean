import NameAdvisor.Proofs.FileSystem.Joined
import NameAdvisor.Text.Numeral

/-!
# The entries of directories

In a file system as a machine can hold it the entries of a directory are what stands one name below it, each name once.

## Main definitions

* `FileSystem.Proper`: file systems with one entry at a location and names that a system allows.
-/

namespace NameAdvisor.FileSystem

/-- There is one entry at a location, its names are proper, and it stands no deeper than a machine word counts. -/
structure Proper (fs : FileSystem) : Prop where
  nodup : (fs.entries.map Prod.fst).Nodup
  isName : ∀ e ∈ fs.entries, ∀ name ∈ e.1, IsName name
  depth : ∀ e ∈ fs.entries, e.1.length < Numeral.wordLimit

theorem proper_iff {fs : FileSystem} : fs.Proper ↔ (fs.entries.map Prod.fst).Nodup ∧
    ∀ e ∈ fs.entries, (∀ name ∈ e.1, IsName name) ∧ e.1.length < Numeral.wordLimit := by
  constructor
  · intro h
    exact ⟨h.nodup, fun e he => ⟨h.isName e he, h.depth e he⟩⟩
  · rintro ⟨hnodup, hentries⟩
    exact ⟨hnodup, fun e he => (hentries e he).1, fun e he => (hentries e he).2⟩

instance (fs : FileSystem) : Decidable fs.Proper :=
  decidable_of_iff _ proper_iff.symm

variable {fs : FileSystem}

theorem mem_entries_of_node? {loc : Location} {node : Node} (hne : loc ≠ []) (h : fs.node? loc = some node) :
    (loc, node) ∈ fs.entries := by
  rw [node?_of_ne_nil fs hne] at h
  obtain ⟨before, after, hentries, -⟩ := List.lookup_eq_some_iff.mp h
  simp [hentries]

theorem node?_of_mem_entries (h : fs.Proper) {loc : Location} (hne : loc ≠ []) {node : Node}
    (hm : (loc, node) ∈ fs.entries) : fs.node? loc = some node := by
  obtain ⟨before, after, hentries⟩ := List.append_of_mem hm
  rw [node?_of_ne_nil fs hne, List.lookup_eq_some_iff]
  refine ⟨before, after, hentries, fun e he => ?_⟩
  have hnodup := h.nodup
  rw [hentries, List.map_append, List.nodup_append] at hnodup
  have hother : e.1 ≠ loc := hnodup.2.2 e.1 (List.mem_map_of_mem he) loc (by simp)
  simpa using hother.symm

/-- An entry of a directory stands one name below it. -/
theorem childOf_eq_some_iff {loc l : Location} {name : String} {n node : Node} :
    (match l.getLast? with
      | some last => if l.dropLast = loc then some (last, n) else none
      | none => none) = some (name, node) ↔ l = loc ++ [name] ∧ n = node := by
  constructor
  · intro h
    cases hl : l.getLast? with
    | none => simp [hl] at h
    | some last =>
      obtain ⟨front, rfl⟩ := List.getLast?_eq_some_iff.mp hl
      simpa [and_assoc] using h
  · rintro ⟨rfl, rfl⟩
    simp

theorem mem_children_iff (h : fs.Proper) {loc : Location} {name : String} {node : Node} :
    (name, node) ∈ fs.children loc ↔ fs.node? (loc ++ [name]) = some node := by
  have hentry : (name, node) ∈ fs.children loc ↔ (loc ++ [name], node) ∈ fs.entries := by
    rw [children, List.mem_filterMap]
    constructor
    · rintro ⟨⟨l, n⟩, hm, he⟩
      obtain ⟨rfl, rfl⟩ := childOf_eq_some_iff.mp he
      exact hm
    · exact fun hm => ⟨_, hm, childOf_eq_some_iff.mpr ⟨rfl, rfl⟩⟩
  rw [hentry]
  exact ⟨node?_of_mem_entries h (by simp), mem_entries_of_node? (by simp)⟩

/-- No two entries of a directory have one name. -/
theorem pairwise_children (h : fs.Proper) (loc : Location) : (fs.children loc).Pairwise fun a b => a.1 ≠ b.1 := by
  refine List.Pairwise.filterMap _ ?_ (List.pairwise_map.mp h.nodup)
  rintro ⟨l, n⟩ ⟨l', n'⟩ hne ⟨name, node⟩ hl ⟨name', node'⟩ hl' rfl
  obtain ⟨rfl, -⟩ := childOf_eq_some_iff.mp hl
  obtain ⟨rfl, -⟩ := childOf_eq_some_iff.mp hl'
  exact hne rfl

theorem Proper.isName_of_node? (h : fs.Proper) {loc : Location} {node : Node} (hn : fs.node? loc = some node)
    {name : String} (hm : name ∈ loc) : IsName name :=
  h.isName _ (mem_entries_of_node? (List.ne_nil_of_mem hm) hn) name hm

end NameAdvisor.FileSystem
