import NameAdvisor.Proofs.Json.Said
import Mathlib.Data.List.Infix
import Mathlib.Data.List.Sort

/-!
# What a merged value holds

Along a path of names two values part at the first place where not both of them hold objects.  There and further down
the merged value holds what the upper one does, or what the lower one does if the upper one says nothing there; where
they do not part it holds an object with the names of both.  Merging once more what was merged already changes nothing.

## Main definitions

* `Json.bothObjects`: whether two values hold objects at the end of a path.
* `Json.parting`: where two values part along a path.
-/

namespace NameAdvisor.Json

namespace Members

theorem isSome_find?_iff {key : String} {members : Members} :
    (find? key members).isSome = true ↔ key ∈ names members := by
  induction members with
  | nil => simp
  | cons m rest ih =>
    obtain ⟨k, v⟩ := m
    rw [find?_cons, names_cons, List.mem_cons]
    split <;> simp_all

/-- Members in order of their names are determined by what is found under each name. -/
theorem Ordered.eq_of_find? {ms ns : Members} (hm : Ordered ms) (hn : Ordered ns)
    (h : ∀ key, find? key ms = find? key ns) : ms = ns := by
  have hirrefl : Std.Irrefl fun a b : String × Json => a.1 < b.1 := ⟨fun a => Std.lt_irrefl⟩
  have hantisymm : Std.Antisymm fun a b : String × Json => a.1 < b.1 :=
    ⟨fun a b hab hba => absurd (Std.lt_trans hab hba) Std.lt_irrefl⟩
  have hfound : ∀ {members : Members}, Ordered members → ∀ m : String × Json,
      m ∈ members ↔ find? m.1 members = some m.2 :=
    fun ho m => ⟨find?_of_mem ho.nodup, mem_of_find?⟩
  refine List.Pairwise.eq_of_mem_iff hm hn fun m => ?_
  rw [hfound hm, hfound hn, h]

end Members

/-! ## Where two values part -/

/-- Whether both values hold objects at the end of the path. -/
def bothObjects (j k : Json) (path : List String) : Bool :=
  (look j path).any isObject && (look k path).any isObject

/-- The shortest beginning of the path, apart from the empty one, at which not both values hold objects. -/
def parting (j k : Json) (path : List String) : Option (List String) :=
  path.inits.tail.find? fun start => !bothObjects j k start

@[simp] theorem parting_nil (j k : Json) : parting j k [] = none := rfl

theorem look_object_cons (members : Members) (key : String) (path : List String) :
    look (.object members) (key :: path) = (Members.find? key members).bind (look · path) := by
  rw [look]

theorem look_object_singleton (members : Members) (key : String) :
    look (.object members) [key] = Members.find? key members := by
  rw [look_object_cons]
  cases Members.find? key members with
  | none => rfl
  | some value => exact look_nil value

theorem bothObjects_singleton_iff {base layer : Members} {key : String} :
    bothObjects (.object base) (.object layer) [key] = true ↔ ∃ inner upper : Members,
      Members.find? key base = some (.object inner) ∧ Members.find? key layer = some (.object upper) := by
  have hobject : ∀ found : Option Json,
      found.any isObject = true ↔ ∃ members : Members, found = some (.object members) := by
    intro found
    cases found with
    | none => simp
    | some value => cases value <;> simp [isObject]
  simp only [bothObjects, look_object_singleton, Bool.and_eq_true, hobject]
  grind

theorem parting_cons (j k : Json) (key : String) (path : List String) :
    parting j k (key :: path) =
      if bothObjects j k [key] then
        (path.inits.tail.find? fun start => !bothObjects j k (key :: start)).map (key :: ·)
      else some [key] := by
  have hinits : path.inits = [] :: path.inits.tail := by cases path <;> simp
  rw [parting, List.inits_cons, List.tail_cons, hinits, List.map_cons, List.find?_cons, List.find?_map, List.tail_cons]
  cases bothObjects j k [key] <;> rfl

section Parting

variable {base layer : Members} {key : String}

/-- Where both members of a name are objects the values part as these do. -/
theorem parting_object_cons {inner upper : Members} (hb : Members.find? key base = some (.object inner))
    (hl : Members.find? key layer = some (.object upper)) (path : List String) :
    parting (.object base) (.object layer) (key :: path) =
      (parting (.object inner) (.object upper) path).map (key :: ·) := by
  have hboth : ∀ start, bothObjects (.object base) (.object layer) (key :: start) =
      bothObjects (.object inner) (.object upper) start := by
    intro start
    simp [bothObjects, look_object_cons, hb, hl]
  rw [parting_cons, hboth, if_pos (by simp [bothObjects, look_nil, isObject])]
  simp only [hboth, parting]

/-- A value that is laid over another one replaces it, unless both are objects. -/
theorem overlaid_of_not_bothObjects (h : bothObjects (.object base) (.object layer) [key] = false) {value : Json}
    (hl : Members.find? key layer = some value) : overlaid (Members.find? key base) value = value := by
  cases hb : Members.find? key base with
  | none => rfl
  | some old =>
    obtain ⟨bs, ls, rfl, rfl, -⟩ | hreplaced := overlay_cases old value
    · simp [bothObjects, look_object_singleton, hb, hl, isObject] at h
    · exact hreplaced

/-- The names of a merged object are those of the lower one and those under which the upper one says something. -/
theorem mem_names_overlayMembers_iff (hn : (Members.names layer).Nodup) :
    key ∈ Members.names (overlayMembers base layer) ↔
      key ∈ Members.names base ∨ ∃ value, (key, value) ∈ layer ∧ value.isNull = false := by
  have hvalue : (∃ value, (key, value) ∈ layer ∧ value.isNull = false) ↔
      ∃ value, Members.find? key layer = some value ∧ value.isNull = false :=
    exists_congr fun value => and_congr_left fun _ => ⟨Members.find?_of_mem hn, Members.mem_of_find?⟩
  rw [hvalue, ← Members.isSome_find?_iff, ← Members.isSome_find?_iff, find?_overlayMembers hn]
  cases Members.find? key layer with
  | none => simp
  | some value => cases hv : value.isNull <;> simp [hv]

end Parting

/-- What one object laid over another one holds at a path.  Where the two part, it holds what the lower one does if the
upper one has nothing or null there, and what the upper one does otherwise; where they do not part, it holds an object
that has the names of the lower one and those under which the upper one has something other than null. -/
theorem look_overlay_object (base layer : Members) (hl : Distinct (.object layer)) (path : List String) :
    let merged := overlay (.object base) (.object layer)
    (∀ start, parting (.object base) (.object layer) path = some start →
        ((look (.object layer) start).all isNull = true → look merged path = look (.object base) path) ∧
          ∀ value, look (.object layer) start = some value → value.isNull = false →
            look merged path = look (.object layer) path) ∧
      (parting (.object base) (.object layer) path = none → ∃ below above both : Members,
        look (.object base) path = some (.object below) ∧ look (.object layer) path = some (.object above) ∧
          look merged path = some (.object both) ∧
          ∀ key, key ∈ Members.names both ↔
            key ∈ Members.names below ∨ ∃ value, (key, value) ∈ above ∧ value.isNull = false) := by
  simp only [overlay]
  -- along the path, as long as both values hold objects: under each name the objects there are merged
  induction path generalizing base layer with
  | nil =>
    obtain ⟨hn, -⟩ := throughout_object_iff.mp hl
    refine ⟨by simp, fun _ => ⟨base, layer, overlayMembers base layer, ?_⟩⟩
    exact ⟨look_nil _, look_nil _, look_nil _, fun key => mem_names_overlayMembers_iff hn⟩
  | cons key path ih =>
    obtain ⟨hn, hmembers⟩ := throughout_object_iff.mp hl
    have hfind := find?_overlayMembers hn key base
    cases hboth : bothObjects (.object base) (.object layer) [key] with
    | true =>
      obtain ⟨inner, upper, hb, hu⟩ := bothObjects_singleton_iff.mp hboth
      have hmerged : Members.find? key (overlayMembers base layer) = some (.object (overlayMembers inner upper)) := by
        simp [hfind, hb, hu, overlaid, overlay, isNull]
      obtain ⟨hparted, htogether⟩ := ih inner upper (hmembers _ (Members.mem_of_find? hu))
      simp only [look_object_cons, hb, hu, hmerged, Option.bind_some, parting_object_cons hb hu path]
      refine ⟨fun _ hstarts => ?_, fun hnone => htogether (Option.map_eq_none_iff.mp hnone)⟩
      obtain ⟨start, hstart, rfl⟩ := Option.map_eq_some_iff.mp hstarts
      simpa only [look_object_cons, hu, Option.bind_some] using hparted start hstart
    | false =>
      have hparting : parting (.object base) (.object layer) (key :: path) = some [key] := by
        rw [parting_cons, hboth]
        rfl
      simp only [hparting, Option.some.injEq, forall_eq', look_object_singleton]
      simp only [look_object_cons, hfind]
      refine ⟨⟨fun hsilent => ?_, fun value hu hnull => ?_⟩, by simp⟩
      · cases hu : Members.find? key layer with
        | none => rfl
        | some value => simp [show value.isNull = true by simpa [hu] using hsilent]
      · simp [hu, hnull, overlaid_of_not_bothObjects hboth hu]

/-- A name under which the upper value holds an object with a null member and the lower one a number. -/
theorem look_overlay_object_of_null :
    let base : Members := [("a", .object [("b", .nat 1)]), ("d", .nat 2)]
    let layer : Members := [("a", .object [("b", .null), ("c", .nat 3)]), ("d", .object [("e", .null)])]
    Distinct (.object layer) ∧ parting (.object base) (.object layer) ["d", "e"] = some ["d"] ∧
      look (.object layer) ["d"] = some (.object [("e", .null)]) ∧
      look (overlay (.object base) (.object layer)) ["d", "e"] = some .null := by
  intro base layer
  have hd : Distinct (.object layer) := by simp [layer, nat]
  have hparting : parting (.object base) (.object layer) ["d", "e"] = some ["d"] := by rfl
  refine ⟨hd, hparting, rfl, ?_⟩
  exact ((look_overlay_object base layer hd ["d", "e"]).1 ["d"] hparting).2 _ rfl rfl

/-! ## Merging again -/

section Again

variable {base layer : Members}

theorem overlayMembers_self (hl : layer.Ordered) (h : ∀ m ∈ layer, overlay m.2 m.2 = m.2) :
    overlayMembers layer layer = layer := by
  refine (hl.overlayMembers layer).eq_of_find? hl fun key => ?_
  rw [find?_overlayMembers hl.nodup]
  cases hv : Members.find? key layer with
  | none => rfl
  | some value =>
    have hsame : overlay value value = value := h _ (Members.mem_of_find? hv)
    simp [overlaid, hsame]

theorem overlayMembers_overlayMembers (hb : base.Ordered) (hl : layer.Ordered)
    (h : ∀ m ∈ layer, overlaid (some (overlaid (Members.find? m.1 base) m.2)) m.2 =
      overlaid (Members.find? m.1 base) m.2) :
    overlayMembers (overlayMembers base layer) layer = overlayMembers base layer := by
  have hmerged := hb.overlayMembers layer
  refine (hmerged.overlayMembers layer).eq_of_find? hmerged fun key => ?_
  rw [find?_overlayMembers hl.nodup, find?_overlayMembers hl.nodup]
  cases hv : Members.find? key layer with
  | none => rfl
  | some value =>
    have hagain : overlaid (some (overlaid (Members.find? key base) value)) value =
        overlaid (Members.find? key base) value := h _ (Members.mem_of_find? hv)
    cases hnull : value.isNull <;> simp [hnull, hagain]

end Again

/-- Both at once: below a name that the base has not, the layer is laid over itself when it is merged again. -/
theorem overlay_self_and_again {layer : Json} (hl : Tidy layer) :
    overlay layer layer = layer ∧
      ∀ {base : Json}, Tidy base → overlay (overlay base layer) layer = overlay base layer := by
  induction hl with
  | @object ls hl _ ih =>
    have hself : overlay (.object ls) (.object ls) = .object ls := by
      rw [overlay, overlayMembers_self hl fun m hm => (ih m hm).1]
    refine ⟨hself, fun {base} hb => ?_⟩
    obtain ⟨bs, _, rfl, he, hmerged⟩ | hreplaced := overlay_cases base (.object ls)
    · cases he
      obtain ⟨hb, hmembers⟩ := throughout_object_iff.mp hb
      rw [hmerged, overlay, overlayMembers_overlayMembers hb hl fun m hm => ?_]
      obtain ⟨hself, hagain⟩ := ih m hm
      cases hold : Members.find? m.1 bs with
      | none => exact hself
      | some old => exact hagain (hmembers _ (Members.mem_of_find? hold))
    · rw [hreplaced, hself]
  | _ => simp [overlay]

/-- A layer that was merged already changes nothing when it is merged once more, and merged with itself it stays as it
is, whatever nulls there are in it and in what it is merged with. -/
theorem overlay_absorbs {base layer : Json} (hb : Tidy base) (hl : Tidy layer) :
    overlay (overlay base layer) layer = overlay base layer ∧ overlay layer layer = layer := by
  obtain ⟨hself, hagain⟩ := overlay_self_and_again hl
  exact ⟨hagain hb, hself⟩

/-- Nulls under a name that the base has, under one that it has not, and inside a value that replaces another one. -/
theorem overlay_absorbs_nulls :
    let base : Json := .object [("a", .object [("b", .nat 1)]), ("c", .nat 2)]
    let layer : Json :=
      .object [("a", .object [("b", .null), ("d", .null)]), ("c", .object [("e", .null)]), ("f", .null)]
    Tidy base ∧ Tidy layer ∧ overlay (overlay base layer) layer = overlay base layer ∧
      overlay layer layer = layer := by
  intro base layer
  -- both are in canonical form as they stand
  have hb : Tidy base := tidy_canonical base
  have hl : Tidy layer := tidy_canonical layer
  exact ⟨hb, hl, overlay_absorbs hb hl⟩

end NameAdvisor.Json
