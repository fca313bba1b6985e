import NameAdvisor.Proofs.Json.Record

/-!
# Null members

Null members can be taken out of values before these are laid over each other or afterwards: an object that is laid over
another one says nothing by a member that is null.  A record is refused for a field that is null, but null members
further inside make no difference to it.

## Main definitions

* `Json.withoutNulls`: a value without the null members of its objects, at any depth.
* `Json.SameButNulls`: values that differ in such members only.
* `Json.isFilled`: whether no member of a value is null.
* `Json.Record.withoutNulls`: a record whose values are without null members.
-/

namespace NameAdvisor.Json

mutual

/-- The value without the null members of the objects in it, at any depth. -/
def withoutNulls : Json → Json
  | .array items => .array (itemsWithoutNulls items)
  | .object members => .object (membersWithoutNulls members)
  | j => j

def itemsWithoutNulls : List Json → List Json
  | [] => []
  | j :: rest => withoutNulls j :: itemsWithoutNulls rest

def membersWithoutNulls : List (String × Json) → List (String × Json)
  | [] => []
  | (key, value) :: rest =>
    if value.isNull then membersWithoutNulls rest else (key, withoutNulls value) :: membersWithoutNulls rest

end

/-- The values differ in nothing but null members of objects, at any depth. -/
def SameButNulls (j k : Json) : Prop :=
  j.withoutNulls = k.withoutNulls

/-- Whether the value, if it is an object, has no member that is null. -/
def isFilled : Json → Bool
  | .object members => members.all fun m => !m.2.isNull
  | _ => true

@[simp] theorem isNull_withoutNulls (j : Json) : j.withoutNulls.isNull = j.isNull := by
  cases j <;> simp [withoutNulls, isNull]

theorem itemsWithoutNulls_eq_map (items : List Json) : itemsWithoutNulls items = items.map withoutNulls := by
  induction items with
  | nil => rfl
  | cons j rest ih => rw [itemsWithoutNulls, ih, List.map_cons]

/-! ## Members -/

section Members

variable {members : Members}

theorem membersWithoutNulls_eq (members : Members) :
    membersWithoutNulls members =
      (members.filter fun m => !m.2.isNull).map fun m => (m.1, m.2.withoutNulls) := by
  induction members with
  | nil => rfl
  | cons m rest ih =>
    obtain ⟨key, value⟩ := m
    rw [membersWithoutNulls, ih]
    cases hv : value.isNull <;> simp [hv]

theorem exists_mem_of_mem_membersWithoutNulls {m : String × Json} (h : m ∈ membersWithoutNulls members) :
    ∃ value, (m.1, value) ∈ members := by
  rw [membersWithoutNulls_eq] at h
  obtain ⟨⟨key, value⟩, hm, rfl⟩ := List.mem_map.mp h
  exact ⟨value, (List.mem_filter.mp hm).1⟩

theorem find?_membersWithoutNulls (hn : (Members.names members).Nodup) (key : String) :
    Members.find? key (membersWithoutNulls members) =
      ((Members.find? key members).filter (!·.isNull)).map withoutNulls := by
  induction members with
  | nil => rfl
  | cons m rest ih =>
    obtain ⟨k, v⟩ := m
    obtain ⟨hk, hrest⟩ := List.nodup_cons.mp hn
    rw [membersWithoutNulls, Members.find?_cons]
    by_cases he : key = k
    · subst he
      have hnone := Members.find?_eq_none_of_notMem hk
      cases hv : v.isNull <;> simp [ih hrest, hnone, hv, Members.find?_cons_self, Option.filter]
    · cases hv : v.isNull <;> simp [ih hrest, he, Members.find?_cons]

theorem insert_of_forall_lt {key : String} {value : Json} (h : ∀ m ∈ members, key < m.1) :
    Members.insert key value members = (key, value) :: members := by
  cases members with
  | nil => rfl
  | cons m rest =>
    obtain ⟨k, v⟩ := m
    rw [Members.insert, if_pos (h (k, v) List.mem_cons_self)]

theorem membersWithoutNulls_insert (h : Members.Ordered members) (key : String) {value : Json}
    (hv : value.isNull = false) :
    membersWithoutNulls (Members.insert key value members) =
      Members.insert key value.withoutNulls (membersWithoutNulls members) := by
  induction members with
  | nil => simp [Members.insert, membersWithoutNulls, hv]
  | cons m rest ih =>
    obtain ⟨k, v⟩ := m
    obtain ⟨hk, hrest⟩ := List.pairwise_cons.mp h
    -- a null member that is left out stands before greater names only
    have hfront : ∀ {name}, (name < k ∨ name = k) → ∀ m ∈ membersWithoutNulls rest, name < m.1 := by
      intro name hname m hm
      obtain ⟨value, hvalue⟩ := exists_mem_of_mem_membersWithoutNulls hm
      have hlt : k < m.1 := hk (m.1, value) hvalue
      obtain hname | rfl := hname
      · exact Std.lt_trans hname hlt
      · exact hlt
    rw [Members.insert]
    split
    · next hlt =>
      cases hnull : v.isNull
      · simp [membersWithoutNulls, hv, hnull, Members.insert, hlt]
      · simp [membersWithoutNulls, hv, hnull, insert_of_forall_lt (hfront (.inl hlt))]
    · next hlt =>
      split
      · next he =>
        cases hnull : v.isNull
        · simp [membersWithoutNulls, hv, hnull, Members.insert, he]
        · simp [membersWithoutNulls, hv, hnull, insert_of_forall_lt (hfront (.inr he))]
      · next hne =>
        cases hnull : v.isNull
        · simp [membersWithoutNulls, hnull, Members.insert, hlt, hne, ih hrest]
        · simp [membersWithoutNulls, hnull, ih hrest]

end Members

/-! ## Laying over -/

theorem overlay_null_base (layer : Json) : overlay .null layer = layer := by
  cases layer <;> simp [overlay]

theorem isNull_overlaid (old? : Option Json) {value : Json} (h : value.isNull = false) :
    (overlaid old? value).isNull = false := by
  cases old? with
  | none => exact h
  | some old =>
    obtain ⟨_, _, _, _, ho⟩ | ho := overlay_cases old value
    · rw [overlaid, ho]
      rfl
    · rw [overlaid, ho]
      exact h

theorem Tidy.insert {members : Members} (h : Tidy (.object members)) (key : String) {value : Json} (hv : Tidy value) :
    Tidy (.object (Members.insert key value members)) := by
  obtain ⟨hp, hm⟩ := throughout_object_iff.mp h
  refine throughout_object_iff.mpr ⟨hp.insert key value, fun m hmem => ?_⟩
  obtain rfl | hmem := Members.mem_insert hmem
  · exact hv
  · exact hm m hmem

theorem Tidy.overlaid {value : Json} (hv : Tidy value) {old? : Option Json} (ho : ∀ old, old? = some old → Tidy old) :
    Tidy (overlaid old? value) := by
  cases old? with
  | none => exact hv
  | some old => exact hv.overlay (ho old rfl)

theorem membersWithoutNulls_overlayMembers {layer : Members}
    (hl : ∀ m ∈ layer, Tidy m.2 ∧
      ∀ {base}, Tidy base → (overlay base m.2).withoutNulls = overlay base.withoutNulls m.2.withoutNulls)
    {base : Members} (hb : Tidy (.object base)) :
    membersWithoutNulls (overlayMembers base layer) =
      overlayMembers (membersWithoutNulls base) (membersWithoutNulls layer) := by
  induction layer generalizing base with
  | nil => simp [membersWithoutNulls]
  | cons m rest ih =>
    obtain ⟨key, value⟩ := m
    obtain ⟨⟨hv, hover⟩, hrest⟩ := List.forall_mem_cons.mp hl
    obtain ⟨hp, hm⟩ := throughout_object_iff.mp hb
    have hold : ∀ old, Members.find? key base = some old → Tidy old := fun old hf => hm _ (Members.mem_of_find? hf)
    rw [overlayMembers_cons, membersWithoutNulls]
    cases hnull : value.isNull with
    | true => simpa using ih hrest hb
    | false =>
      have hlaid : (overlaid (Members.find? key base) value).withoutNulls =
          overlaid (Members.find? key (membersWithoutNulls base)) value.withoutNulls := by
        rw [find?_membersWithoutNulls hp.nodup]
        cases hf : Members.find? key base with
        | none => rfl
        | some old =>
          cases ho : old.isNull with
          | true =>
            obtain rfl : old = .null := by cases old <;> first | rfl | cases ho
            simp [overlaid, overlay_null_base, Option.filter]
          | false => simpa [overlaid, ho, Option.filter] using hover (hold old hf)
      have hinsert := membersWithoutNulls_insert hp key (isNull_overlaid (Members.find? key base) hnull)
      simp only [Bool.false_eq_true, if_false]
      rw [ih hrest (hb.insert key (hv.overlaid hold)), hinsert, hlaid, overlayMembers_cons, isNull_withoutNulls, hnull,
        if_neg (by decide)]

/-- Null members can be taken out before a value is laid over another one, or afterwards. -/
theorem withoutNulls_overlay {layer : Json} (hl : Tidy layer) {base : Json} (hb : Tidy base) :
    (overlay base layer).withoutNulls = overlay base.withoutNulls layer.withoutNulls := by
  induction hl generalizing base with
  | object hp h ih =>
    cases base with
    | object bs =>
      simp only [overlay, withoutNulls]
      rw [membersWithoutNulls_overlayMembers (fun m hm => ⟨h m hm, ih m hm⟩) hb]
    | _ => simp [overlay, withoutNulls]
  | _ => simp [overlay, withoutNulls]

/-! ## Filled objects -/

theorem isFilled_object_iff {members : Members} :
    isFilled (.object members) = true ↔ ∀ m ∈ members, m.2.isNull = false := by
  simp [isFilled]

theorem membersWithoutNulls_of_isFilled {members : Members} (h : isFilled (.object members) = true) :
    membersWithoutNulls members = members.map fun m => (m.1, m.2.withoutNulls) := by
  rw [membersWithoutNulls_eq, List.filter_eq_self.mpr (by simpa [isFilled] using h)]

/-- What is laid over an object without null members has none itself. -/
theorem isFilled_overlayMembers {base : Members} (hb : isFilled (.object base) = true) (layer : Members) :
    isFilled (.object (overlayMembers base layer)) = true := by
  induction layer generalizing base with
  | nil => simpa using hb
  | cons m rest ih =>
    obtain ⟨key, value⟩ := m
    rw [overlayMembers_cons]
    split
    · exact ih hb
    · next hnull =>
      refine ih (isFilled_object_iff.mpr fun m hm => ?_)
      obtain rfl | hm := Members.mem_insert hm
      · exact isNull_overlaid _ (by simpa using hnull)
      · exact isFilled_object_iff.mp hb m hm

theorem isFilled_overlay {base : Members} (hb : isFilled (.object base) = true) (layer : Json) :
    isFilled (overlay (.object base) layer) = true := by
  cases layer with
  | object members =>
    rw [overlay]
    exact isFilled_overlayMembers hb members
  | _ => simp [overlay, isFilled]

/-- What is laid over a filled object inside another object is filled. -/
theorem isFilled_of_find?_overlayMembers {layer : Members} (hn : (Members.names layer).Nodup) {base inner : Members}
    {key : String} (hb : Members.find? key base = some (.object inner)) (hi : isFilled (.object inner) = true)
    {value : Json} (hv : Members.find? key (overlayMembers base layer) = some value) : value.isFilled = true := by
  rw [find?_overlayMembers hn, hb] at hv
  split at hv
  · cases hv
    exact hi
  · split at hv
    · cases hv
      exact hi
    · cases hv
      exact isFilled_overlay hi _

/-! ## Reading -/

namespace Decoder

/-! Where a text or a number is wanted, an object is refused whatever it holds. -/

@[simp] theorem string_withoutNulls (j : Json) : string j.withoutNulls = string j := by
  cases j <;> simp [withoutNulls, string, describe]

@[simp] theorem word_withoutNulls (j : Json) : word j.withoutNulls = word j := by
  cases j <;> simp [withoutNulls, word, natBelow, describe]

@[simp] theorem text_withoutNulls {α : Type} (read : String → Except String α) (j : Json) :
    text read j.withoutNulls = text read j := by
  cases j <;> simp [withoutNulls, text, describe]

end Decoder

theorem Field.check_withoutNulls {α : Type} {name : String} {decode : Decoder α} {j : Json}
    (h : decode j.withoutNulls = decode j) :
    (Field.of name decode).check j.withoutNulls = (Field.of name decode).check j := by
  simp only [Field.of, h]

namespace Record

/-- The record with its values without null members. -/
def withoutNulls (r : Record) : Record :=
  { r with given := r.given.map fun m => (m.1, m.2.withoutNulls) }

theorem checkMembers_withoutNulls {fields : List Field} {members : Members}
    (h : ∀ f ∈ fields, ∀ v, (f.name, v) ∈ members → f.check v.withoutNulls = f.check v) (seen : List String) :
    checkMembers fields seen (members.map fun m => (m.1, m.2.withoutNulls)) = checkMembers fields seen members := by
  induction members generalizing seen with
  | nil => rfl
  | cons m rest ih =>
    obtain ⟨key, value⟩ := m
    have hrest := ih fun f hf v hv => h f hf v (List.mem_cons_of_mem _ hv)
    rw [List.map_cons, checkMembers, checkMembers]
    cases hf : fields.find? (·.name == key) with
    | none => exact hrest seen
    | some field =>
      have hname : field.name = key := by simpa using List.find?_some hf
      have hcheck : field.check value.withoutNulls = field.check value :=
        h field (List.mem_of_find?_eq_some hf) value (by simp [hname])
      simp only [hcheck, hrest]

theorem checkItems_withoutNulls {fields : List Field} (h : ∀ f ∈ fields, ∀ v, f.check v.withoutNulls = f.check v)
    (items : List Json) : checkItems fields (items.map Json.withoutNulls) = checkItems fields items := by
  induction fields generalizing items with
  | nil => cases items <;> rfl
  | cons field fields ih =>
    obtain ⟨hfield, hfields⟩ := List.forall_mem_cons.mp h
    cases items with
    | nil => rfl
    | cons j rest => simp only [List.map_cons, checkItems, hfield, ih hfields]

/-- An object without null members of its own offers the same fields without those further inside. -/
theorem ofJson_object_withoutNulls {members : Members} (hm : isFilled (.object members) = true) (title : String)
    {fields : List Field} (h : ∀ f ∈ fields, ∀ v, (f.name, v) ∈ members → f.check v.withoutNulls = f.check v) :
    ofJson title fields (.object members : Json).withoutNulls =
      (ofJson title fields (.object members)).map withoutNulls := by
  rw [Json.withoutNulls, membersWithoutNulls_of_isFilled hm, ofJson, ofJson, checkMembers_withoutNulls h]
  cases checkMembers fields [] members <;> rfl

@[inherit_doc ofJson_object_withoutNulls]
theorem ofJson_withoutNulls {j : Json} (hj : j.isFilled = true) (title : String) {fields : List Field}
    (h : ∀ f ∈ fields, ∀ v, f.check v.withoutNulls = f.check v) :
    ofJson title fields j.withoutNulls = (ofJson title fields j).map withoutNulls := by
  cases j with
  | object members => exact ofJson_object_withoutNulls hj title fun f hf v _ => h f hf v
  | array items =>
    rw [Json.withoutNulls, itemsWithoutNulls_eq_map, ofJson, ofJson, checkItems_withoutNulls h, List.length_map]
    cases checkItems fields items with
    | error e => rfl
    | ok u =>
      by_cases hl : fields.length < items.length
      · simp [hl, bind, Except.bind, Except.map]
      · simp [hl, bind, Except.bind, pure, Except.pure, Except.map, withoutNulls, List.zip_map_right, Prod.map]
  | _ => rfl

theorem field_withoutNulls {α : Type} {r : Record} {name : String} {decode : Decoder α} {default : α}
    (h : ∀ v, Members.find? name r.given = some v → decode v.withoutNulls = decode v) :
    r.withoutNulls.field name decode default = r.field name decode default := by
  rw [field, field, withoutNulls, Members.find?_map]
  cases hv : Members.find? name r.given with
  | none => rfl
  | some v => exact h v hv

/-- What is read from records makes no difference between them if it makes none where they can be had. -/
theorem bind_withoutNulls {α : Type} {x y : Except Mismatch Record} (hx : y = x.map withoutNulls)
    {read : Record → Except Mismatch α} (h : ∀ r, x = .ok r → read r.withoutNulls = read r) :
    y >>= read = x >>= read := by
  subst hx
  cases x with
  | error e => rfl
  | ok r => exact h r rfl

end Record

end NameAdvisor.Json
