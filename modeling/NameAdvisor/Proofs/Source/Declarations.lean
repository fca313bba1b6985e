import NameAdvisor.Proofs.Tree.Walk
import NameAdvisor.Source.Declarations

/-!
# The declarations of a source

Every node of a tree is looked at once, a construct before its parts and the parts in order.  In a tree whose parts
stand in order, the lines of the declarations that are found never go back.

## Main definitions

* `Tree.isInOrder`: the parts of every construct stand one after the other and inside it.
-/

namespace NameAdvisor

namespace Tree

mutual

/-- The parts of a construct stand one after the other and inside it, and so do theirs. -/
def isInOrder : Tree → Bool
  | node _ _ s cs => partsInOrder s.start s.stop cs

/-- The parts stand one after the other between two places, and their own parts do so as well. -/
def partsInOrder (start stop : Nat) : List Tree → Bool
  | [] => start ≤ stop
  | c :: cs => start ≤ c.span.start && c.isInOrder && partsInOrder c.span.stop stop cs

end

theorem partsInOrder_cons {start stop : Nat} {c : Tree} {cs : List Tree} :
    partsInOrder start stop (c :: cs) = true ↔
      start ≤ c.span.start ∧ c.isInOrder = true ∧ partsInOrder c.span.stop stop cs = true := by
  simp [partsInOrder, and_assoc]

mutual

theorem start_le_stop {t : Tree} (h : t.isInOrder = true) : t.span.start ≤ t.span.stop := by
  obtain ⟨k, r, s, cs⟩ := t
  exact le_of_partsInOrder h

theorem le_of_partsInOrder {start stop : Nat} {cs : List Tree} (h : partsInOrder start stop cs = true) :
    start ≤ stop := by
  cases cs with
  | nil => simpa [partsInOrder] using h
  | cons c cs =>
    obtain ⟨hstart, hc, hcs⟩ := partsInOrder_cons.mp h
    exact hstart.trans ((start_le_stop hc).trans (le_of_partsInOrder hcs))

end

mutual

/-- A place inside a construct stands inside it, and is in order itself. -/
theorem inside_of_mem_places {t : Tree} (h : t.isInOrder = true) {above : List Level} {d : Cursor}
    (hd : d ∈ t.places above) :
    d.focus.isInOrder = true ∧ t.span.start ≤ d.focus.span.start ∧ d.focus.span.stop ≤ t.span.stop := by
  obtain ⟨k, r, s, cs⟩ := t
  rw [places] at hd
  obtain rfl | hd := List.mem_cons.mp hd
  · exact ⟨h, Nat.le_refl _, Nat.le_refl _⟩
  · exact inside_of_mem_placesAmong h hd

theorem inside_of_mem_placesAmong {start stop : Nat} {cs : List Tree} (h : partsInOrder start stop cs = true)
    {k : NodeKind} {r : Option Role} {s : Span} {above : List Level} {before : List Tree} {d : Cursor}
    (hd : d ∈ placesAmong k r s above before cs) :
    d.focus.isInOrder = true ∧ start ≤ d.focus.span.start ∧ d.focus.span.stop ≤ stop := by
  cases cs with
  | nil => cases hd
  | cons c cs =>
    obtain ⟨hstart, hc, hcs⟩ := partsInOrder_cons.mp h
    rw [placesAmong] at hd
    obtain hd | hd := List.mem_append.mp hd
    · obtain ⟨horder, hfrom, hto⟩ := inside_of_mem_places hc hd
      exact ⟨horder, hstart.trans hfrom, hto.trans (le_of_partsInOrder hcs)⟩
    · obtain ⟨horder, hfrom, hto⟩ := inside_of_mem_placesAmong hcs hd
      exact ⟨horder, hstart.trans ((start_le_stop hc).trans hfrom), hto⟩

end

mutual

/-- The places of a tree in order start one after the other. -/
theorem pairwise_start_places {t : Tree} (h : t.isInOrder = true) (above : List Level) :
    (t.places above).Pairwise (·.focus.span.start ≤ ·.focus.span.start) := by
  obtain ⟨k, r, s, cs⟩ := t
  rw [places]
  exact List.pairwise_cons.mpr
    ⟨fun c hc => (inside_of_mem_placesAmong h hc).2.1, pairwise_start_placesAmong h k r s above []⟩

theorem pairwise_start_placesAmong {start stop : Nat} {cs : List Tree} (h : partsInOrder start stop cs = true)
    (k : NodeKind) (r : Option Role) (s : Span) (above : List Level) (before : List Tree) :
    (placesAmong k r s above before cs).Pairwise (·.focus.span.start ≤ ·.focus.span.start) := by
  cases cs with
  | nil => exact .nil
  | cons c cs =>
    obtain ⟨-, hc, hcs⟩ := partsInOrder_cons.mp h
    rw [placesAmong]
    refine List.pairwise_append.mpr
      ⟨pairwise_start_places hc _, pairwise_start_placesAmong hcs k r s above (c :: before), fun a ha b hb => ?_⟩
    obtain ⟨horder, -, hstop⟩ := inside_of_mem_places hc ha
    exact (start_le_stop horder).trans (hstop.trans (inside_of_mem_placesAmong hcs hb).2.1)

end

end Tree

namespace Declaration

variable (source : List Char)

theorem one_le_lineOf (start : Nat) : 1 ≤ lineOf source start := by
  have hlast : 1 ≤ lastLine := by decide
  exact Nat.le_min.mpr ⟨by omega, hlast⟩

/-- There is a line for each line break and one more. -/
theorem lineOf_le (start : Nat) : lineOf source start ≤ 1 + source.count '\n' := by
  have hcount := (List.take_sublist start source).count_le '\n'
  exact (Nat.min_le_left ..).trans (by omega)

theorem lineOf_le_lineOf {start start' : Nat} (h : start ≤ start') : lineOf source start ≤ lineOf source start' := by
  have hcount := (List.take_sublist_take_left (l := source) h).count_le '\n'
  exact Nat.le_min.mpr ⟨(Nat.min_le_left ..).trans (by omega), Nat.min_le_right ..⟩

variable {source}

/-- A declaration is on the line on which its node starts. -/
theorem line_of_classify? {c : Cursor} {i : Identifier} (h : classify? source c = some i) :
    i.line = some (lineOf source c.focus.span.start) := by
  unfold classify? at h
  split at h
  · cases h
    rfl
  · cases h

theorem map_line_filterMap (visited : List Cursor) :
    (visited.filterMap (classify? source)).map Identifier.line =
      ((visited.filter (classify? source · |>.isSome)).map fun c => some (lineOf source c.focus.span.start)) := by
  induction visited with
  | nil => rfl
  | cons c rest ih =>
    cases hc : classify? source c with
    | none => simp [hc, ih]
    | some i => simp [hc, ih, line_of_classify? hc]

/-- A walk of any tree comes to an end.  It has then been at each of its places once, in the order of their addresses,
and what these declare is what is found.  If the parts of the tree stand in order, the lines of the declarations never
go back, and there is no line beyond those of the source. -/
theorem inTree_visits_places (source : List Char) {t : Tree} (h : t.isInOrder = true) :
    ∃ visited : List Cursor,
      (∀ n, t.size ≤ n → Cursor.walkFrom n (Cursor.top t) = visited) ∧
      (∀ c, c ∈ visited ↔ t.HasPlace c) ∧ visited.length = t.size ∧
      visited.Pairwise (·.address < ·.address) ∧
      inTree source t = visited.filterMap (classify? source) ∧
      ∃ lines : List Nat, (inTree source t).map Identifier.line = lines.map some ∧ lines.Pairwise (· ≤ ·) ∧
        ∀ n ∈ lines, 1 ≤ n ∧ n ≤ 1 + source.count '\n' := by
  have hfound : inTree source t = (t.places []).filterMap (classify? source) := by
    rw [inTree, Cursor.walk_eq_places]
  refine ⟨t.places [], fun n hn => Cursor.walkFrom_top hn, fun c => Tree.mem_places_iff, Tree.length_places t [],
    Tree.pairwise_address_places t [], hfound,
    ((t.places []).filter (classify? source · |>.isSome)).map fun c => lineOf source c.focus.span.start, ?_, ?_, ?_⟩
  · rw [hfound, map_line_filterMap, List.map_map]
    rfl
  · refine List.pairwise_map.mpr ?_
    exact ((Tree.pairwise_start_places h []).filter _).imp (lineOf_le_lineOf source)
  · intro n hn
    obtain ⟨c, -, rfl⟩ := List.mem_map.mp hn
    exact ⟨one_le_lineOf source _, lineOf_le source _⟩

/-- Declarations at several depths, some of them on one line. -/
theorem inTree_visits_places_of_nested :
    let source := "// a\nexport class K \x7b\n  m() \x7b let a = 1, b = \x7b g() \x7b\x7d \x7d \x7d\n  f = 2\n\x7d\n".toList
    let t := Tree.ofSource .typeScript source
    t.isInOrder = true ∧
      (inTree source t).map (fun i => (i.name, i.line)) =
        [("m", some 3), ("a", some 3), ("b", some 3), ("g", some 3), ("f", some 4)] ∧
      ∃ visited : List Cursor, (∀ n, t.size ≤ n → Cursor.walkFrom n (Cursor.top t) = visited) ∧
        visited.length = 47 ∧ inTree source t = visited.filterMap (classify? source) ∧
        ∃ lines : List Nat, (inTree source t).map Identifier.line = lines.map some ∧ lines.Pairwise (· ≤ ·) ∧
          ∀ n ∈ lines, 1 ≤ n ∧ n ≤ 1 + source.count '\n' := by
  intro source t
  have horder : t.isInOrder = true := by decide +kernel
  have hsize : t.size = 47 := by decide +kernel
  obtain ⟨visited, hwalk, -, hlength, -, hfound, hlines⟩ := inTree_visits_places source horder
  exact ⟨horder, by decide +kernel, visited, hwalk, hlength.trans hsize, hfound, hlines⟩

end Declaration

end NameAdvisor
