import NameAdvisor.Proofs.Json.Members

/-!
# What a value holds, and what is laid over it

## Main definitions

* `Json.Throughout`: values all of whose objects have some property.
* `Json.Tidy`, `Json.Distinct`: values whose objects are in order of names, or do not repeat names.
* `Json.Carries`: values that hold everything that another one does.
-/

namespace NameAdvisor.Json

/-- Every object in the value has the property `P`. -/
inductive Throughout (P : Members → Prop) : Json → Prop
  | null : Throughout P .null
  | bool (b : Bool) : Throughout P (.bool b)
  | number (n : Number) : Throughout P (.number n)
  | string (s : String) : Throughout P (.string s)
  | array {items : List Json} (h : ∀ j ∈ items, Throughout P j) : Throughout P (.array items)
  | object {members : Members} (hp : P members) (h : ∀ m ∈ members, Throughout P m.2) : Throughout P (.object members)

attribute [simp] Throughout.null Throughout.bool Throughout.number Throughout.string

@[simp] theorem throughout_object_iff {P : Members → Prop} {members : Members} :
    Throughout P (.object members) ↔ P members ∧ ∀ m ∈ members, Throughout P m.2 := by
  constructor
  · rintro ⟨⟩
    exact ⟨‹_›, ‹_›⟩
  · exact fun h => .object h.1 h.2

/-- Every object in the value is in strict order of names. -/
abbrev Tidy : Json → Prop := Throughout Members.Ordered

/-- No object in the value repeats a name. -/
abbrev Distinct : Json → Prop := Throughout fun members => (Members.names members).Nodup

theorem Throughout.imp {P Q : Members → Prop} (hpq : ∀ members, P members → Q members) {j : Json}
    (h : Throughout P j) : Throughout Q j := by
  induction h with
  | null => exact .null
  | bool b => exact .bool b
  | number n => exact .number n
  | string s => exact .string s
  | array _ ih => exact .array ih
  | object hp _ ih => exact .object (hpq _ hp) ih

theorem Tidy.distinct {j : Json} (h : Tidy j) : Distinct j :=
  h.imp fun _ => Members.Ordered.nodup

theorem Throughout.find? {P : Members → Prop} {members : Members} (h : Throughout P (.object members)) {key : String}
    {value : Json} (hv : Members.find? key members = some value) : Throughout P value := by
  cases h with
  | object _ h => exact h _ (Members.mem_of_find? hv)

/-! ## Ordering -/

theorem mem_of_mem_sorted {members : Members} {m : String × Json} (h : m ∈ Members.sorted members) : m ∈ members := by
  have hfold : ∀ (rest acc : Members), m ∈ rest.foldl (fun acc m => Members.insert m.1 m.2 acc) acc →
      m ∈ rest ∨ m ∈ acc := by
    intro rest
    induction rest with
    | nil => exact fun acc hm => .inr hm
    | cons m' rest ih =>
      intro acc hm
      obtain hm | hm := ih _ hm
      · exact .inl (List.mem_cons_of_mem _ hm)
      · obtain rfl | hm := Members.mem_insert hm
        · exact .inl List.mem_cons_self
        · exact .inr hm
  simpa using hfold members [] h

theorem canonicalMembers_eq_map (members : Members) :
    canonicalMembers members = members.map fun m => (m.1, canonical m.2) := by
  induction members with
  | nil => rfl
  | cons m rest ih => rw [canonicalMembers, ih, List.map_cons]

theorem Members.find?_map (f : Json → Json) (key : String) (members : Members) :
    find? key (members.map fun m => (m.1, f m.2)) = (find? key members).map f := by
  induction members with
  | nil => rfl
  | cons m rest ih =>
    rw [List.map_cons, find?_cons, ih, find?_cons]
    split <;> rfl

mutual

/-- Ordering puts every object in order. -/
theorem tidy_canonical : ∀ j : Json, Tidy j.canonical
  | .null => .null
  | .bool b => .bool b
  | .number n => .number n
  | .string s => .string s
  | .array items => by
    rw [canonical]
    exact .array (tidy_canonicalItems items)
  | .object members => by
    rw [canonical]
    exact .object (Members.ordered_sorted _) fun m hm => tidy_canonicalMembers members m (mem_of_mem_sorted hm)

theorem tidy_canonicalItems : ∀ items : List Json, ∀ j ∈ canonicalItems items, Tidy j
  | [] => by simp [canonicalItems]
  | j :: rest => by
    rw [canonicalItems]
    exact List.forall_mem_cons.mpr ⟨tidy_canonical j, tidy_canonicalItems rest⟩

theorem tidy_canonicalMembers : ∀ members : Members, ∀ m ∈ canonicalMembers members, Tidy m.2
  | [] => by simp [canonicalMembers]
  | (k, j) :: rest => by
    rw [canonicalMembers]
    exact List.forall_mem_cons.mpr ⟨tidy_canonical j, tidy_canonicalMembers rest⟩

end

/-! ## Looking -/

/-- Whether a value is a text, a number or a truth value. -/
def isScalar : Json → Bool
  | .bool _ | .number _ | .string _ => true
  | _ => false

theorem look_nil (j : Json) : look j [] = some j := by
  cases j <;> rfl

theorem look_cons_eq_some {j v : Json} {key : String} {path : List String} :
    look j (key :: path) = some v ↔
      ∃ members w, j = .object members ∧ Members.find? key members = some w ∧ look w path = some v := by
  cases j with
  | object members =>
    rw [look]
    cases hw : Members.find? key members <;> simp [hw]
  | _ => simp [look]

/-- Every scalar of `k` stands at the same place of `j`. -/
def Carries (j k : Json) : Prop :=
  ∀ ⦃path : List String⦄ ⦃v : Json⦄, v.isScalar → look k path = some v → look j path = some v

theorem Carries.trans {i j k : Json} (hij : Carries i j) (hjk : Carries j k) : Carries i k :=
  fun _ _ hv hl => hij hv (hjk hv hl)

/-- Where an object is carried that has a scalar, each of its names is there and carries its value. -/
theorem Carries.exists_member {members ks : Members} (h : Carries (.object members) (.object ks)) (key : String)
    {value : Json} (hk : Members.find? key ks = some value) {path : List String} {v : Json} (hv : v.isScalar)
    (hl : look value path = some v) :
    ∃ w, Members.find? key members = some w ∧ Carries w value := by
  have hlook : ∀ {path v}, v.isScalar → look value path = some v → ∃ w, Members.find? key members = some w ∧
      look w path = some v := by
    intro path v hv hl
    obtain ⟨_, w, he, hf, hl'⟩ := look_cons_eq_some.mp (h hv (look_cons_eq_some.mpr ⟨ks, value, rfl, hk, hl⟩))
    cases he
    exact ⟨w, hf, hl'⟩
  obtain ⟨w, hf, -⟩ := hlook hv hl
  refine ⟨w, hf, fun _ _ hv hl => ?_⟩
  obtain ⟨w', hf', hl'⟩ := hlook hv hl
  cases hf.symm.trans hf'
  exact hl'

theorem canonical_of_isScalar {v : Json} (h : v.isScalar) : v.canonical = v := by
  cases v <;> first | rfl | cases h

/-- Ordering a value moves its members, and changes none. -/
theorem carries_canonical {j : Json} (h : Distinct j) : Carries j.canonical j := by
  intro path v hv hl
  induction path generalizing j with
  | nil =>
    rw [look_nil] at hl ⊢
    cases hl
    rw [canonical_of_isScalar hv]
  | cons key path ih =>
    obtain ⟨members, w, rfl, hf, hl⟩ := look_cons_eq_some.mp hl
    have hnames : Members.names (canonicalMembers members) = Members.names members := by
      simp [canonicalMembers_eq_map, Members.names]
    cases h with
    | object hn hms =>
      refine look_cons_eq_some.mpr ⟨_, w.canonical, by rw [canonical], ?_, ?_⟩
      · rw [Members.find?_sorted (hnames ▸ hn), canonicalMembers_eq_map, Members.find?_map, hf,
          Option.map_some]
      · exact ih (hms _ (Members.mem_of_find? hf)) hl

/-! ## Laying over -/

/-- A value laid over what stands in its place, if anything. -/
def overlaid (old? : Option Json) (value : Json) : Json :=
  match old? with
  | some old => overlay old value
  | none => value

theorem overlayMembers_cons (base : Members) (key : String) (value : Json) (rest : Members) :
    overlayMembers base ((key, value) :: rest) =
      if value.isNull then overlayMembers base rest
      else overlayMembers (Members.insert key (overlaid (Members.find? key base) value) base) rest := by
  rw [overlayMembers]
  cases Members.find? key base <;> rfl

/-- What a name stands for after members were laid over others. -/
theorem find?_overlayMembers {layer : Members} (hn : (Members.names layer).Nodup) (key : String) (base : Members) :
    Members.find? key (overlayMembers base layer) =
      match Members.find? key layer with
      | none => Members.find? key base
      | some value =>
        if value.isNull then Members.find? key base else some (overlaid (Members.find? key base) value) := by
  induction layer generalizing base with
  | nil => rfl
  | cons m rest ih =>
    obtain ⟨k, v⟩ := m
    obtain ⟨hk, hrest⟩ := List.nodup_cons.mp hn
    rw [overlayMembers_cons, Members.find?_cons]
    by_cases he : key = k
    · subst he
      have hnone := Members.find?_eq_none_of_notMem hk
      cases hv : v.isNull <;> simp [ih hrest, hnone, hv]
    · cases hv : v.isNull <;> simp [ih hrest, he, Members.find?_insert_of_ne he]

theorem Members.Ordered.overlayMembers {base : Members} (h : Ordered base) (layer : Members) :
    Ordered (Json.overlayMembers base layer) := by
  induction layer generalizing base with
  | nil => simpa using h
  | cons m rest ih =>
    obtain ⟨k, v⟩ := m
    rw [overlayMembers_cons]
    split
    · exact ih h
    · exact ih (h.insert _ _)

/-- Objects are joined, and every other value replaces what it is laid over. -/
theorem overlay_cases (base layer : Json) :
    (∃ bs ls, base = .object bs ∧ layer = .object ls ∧ overlay base layer = .object (overlayMembers bs ls)) ∨
      overlay base layer = layer := by
  cases layer with
  | object ls =>
    cases base with
    | object bs => exact .inl ⟨bs, ls, rfl, rfl, by rw [overlay]⟩
    | _ => exact .inr (by simp [overlay])
  | _ => exact .inr (by simp [overlay])

theorem overlay_of_isScalar (base : Json) {layer : Json} (h : layer.isScalar) : overlay base layer = layer := by
  obtain ⟨_, _, _, rfl, _⟩ | he := overlay_cases base layer
  · cases h
  · exact he

theorem tidy_overlayMembers {layer : Members}
    (hl : ∀ m ∈ layer, Tidy m.2 ∧ ∀ {base}, Tidy base → Tidy (overlay base m.2)) {base : Members}
    (hb : ∀ m ∈ base, Tidy m.2) : ∀ m ∈ overlayMembers base layer, Tidy m.2 := by
  induction layer generalizing base with
  | nil => simpa using hb
  | cons m rest ih =>
    obtain ⟨k, v⟩ := m
    obtain ⟨⟨hv, hover⟩, hrest⟩ := List.forall_mem_cons.mp hl
    rw [overlayMembers_cons]
    split
    · exact ih hrest hb
    · refine ih hrest fun m hm => ?_
      obtain rfl | hm := Members.mem_insert hm
      · cases hf : Members.find? k base with
        | none => exact hv
        | some old => exact hover (hb _ (Members.mem_of_find? hf))
      · exact hb m hm

/-- A tidy value laid over a tidy one is tidy. -/
theorem Tidy.overlay {layer : Json} (hl : Tidy layer) {base : Json} (hb : Tidy base) : Tidy (overlay base layer) := by
  induction hl generalizing base with
  | object hp h ih =>
    obtain ⟨bs, ls, rfl, he, ho⟩ | ho := overlay_cases base (.object _)
    · cases he
      rw [ho]
      cases hb with
      | object hbp hbm => exact .object (hbp.overlayMembers _) (tidy_overlayMembers (fun m hm => ⟨h m hm, ih m hm⟩) hbm)
    · rw [ho]
      exact .object hp h
  | array h => exact (overlay_cases base (.array _)).elim (by simp) fun ho => ho ▸ .array h
  | null => exact (overlay_cases base .null).elim (by simp) fun ho => ho ▸ .null
  | bool b => rw [overlay_of_isScalar base rfl]; exact .bool b
  | number n => rw [overlay_of_isScalar base rfl]; exact .number n
  | string s => rw [overlay_of_isScalar base rfl]; exact .string s

/-- Whatever a value is laid over, its scalars stand. -/
theorem carries_overlay {layer : Json} (h : Distinct layer) (base : Json) : Carries (overlay base layer) layer := by
  intro path v hv hl
  -- along the path: a step leads into what was laid over the member of the base, or into the layer itself
  induction path generalizing base layer with
  | nil =>
    rw [look_nil] at hl ⊢
    cases hl
    rw [overlay_of_isScalar base hv]
  | cons key path ih =>
    obtain ⟨members, w, rfl, hf, hl'⟩ := look_cons_eq_some.mp hl
    obtain ⟨bs, ls, rfl, he, ho⟩ | ho := overlay_cases base (.object members)
    · cases he
      have hw : w.isNull = false := by
        cases w with
        | null => cases path with
          | nil => cases hl'; cases hv
          | cons key path => cases hl'
        | _ => rfl
      cases h with
      | object hn hms =>
        refine look_cons_eq_some.mpr ⟨_, overlaid (Members.find? key bs) w, ho, ?_, ?_⟩
        · rw [find?_overlayMembers hn, hf]
          simp [hw]
        · cases hb : Members.find? key bs with
          | none => exact hl'
          | some old => exact ih (hms _ (Members.mem_of_find? hf)) old hl'
    · rw [ho]
      exact hl

end NameAdvisor.Json
