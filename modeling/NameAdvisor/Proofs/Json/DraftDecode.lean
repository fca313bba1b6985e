import NameAdvisor.Json.DraftDecode
import NameAdvisor.Proofs.Json.Record
import Mathlib.Data.List.Forall2

/-!
# What readers of drafts accept

A reader goes through a draft in the order of its bytes, and compares the names of members with those it has seen.  What
it accepts in the end does not depend on that order: it is told here by relations between drafts and data, of which the
readers give all and nothing else.

## Main definitions

* `Json.Draft.IsText`, `Json.Draft.IsOptional`, `Json.Draft.IsList`: drafts of texts, of what may be null, and of lists.
* `Json.Draft.Offers`: what a draft offers to the fields of a record.
* `Json.Draft.IsSingle`: drafts of records with one field.
* `Json.Draft.Reader.Reads`: a reader gives what a relation says.
-/

namespace NameAdvisor.Json.Draft

variable {α : Type}

/-! ## Drafts of data -/

/-- The draft is a string of the text `s`. -/
def IsText (d : Draft) (s : String) : Prop :=
  ∃ fault, d = string (.ok s) fault

/-- The draft is null, or what `P` says of a value. -/
def IsOptional (P : Draft → α → Prop) (d : Draft) : Option α → Prop
  | none => d = null
  | some a => d ≠ null ∧ P d a

/-- The draft is an array, closed after its items, which are what `P` says of the values in their order. -/
def IsList (P : Draft → α → Prop) (d : Draft) (as : List α) : Prop :=
  ∃ items, d = array items none ∧ List.Forall₂ P items as

/-- What a draft offers to the fields called `names`: an object offers its members of these names, of which no two are
alike, and must be free of faults in the others; an array offers its items in the order of the fields, and may have
fewer. -/
inductive Offers (names : List String) : Draft → List (String × Draft) → Prop
  | members {members : List (String × Draft)} (once : ((members.filter (·.1 ∈ names)).map Prod.fst).Nodup)
    (others : ∀ m ∈ members, m.1 ∉ names → m.2.fault? = none) :
    Offers names (object (members.map fun m => (.ok m.1, m.2)) none) (members.filter (·.1 ∈ names))
  | items {items : List Draft} (few : items.length ≤ names.length) :
    Offers names (array items none) (names.zip items)

/-- The field `name` has the value that `P` says of what is offered for it; nothing offered stands for the default. -/
def IsGiven (P : Draft → α → Prop) (default : Option α) (given : List (String × Draft)) (name : String) (a : α) :
    Prop :=
  match given.lookup name with
  | some d => P d a
  | none => default = some a

/-- The draft is a record with a single field; without a default the field must be there. -/
def IsSingle (name : String) (P : Draft → α → Prop) (default : Option α) (d : Draft) (a : α) : Prop :=
  ∃ given, Offers [name] d given ∧ IsGiven P default given name a

/-- The reader gives what `P` says, and nothing else. -/
def Reader.Reads (read : Reader α) (P : Draft → α → Prop) : Prop :=
  ∀ d a, read d = .ok a ↔ P d a

/-! ## Readers of data -/

theorem goOn_eq_ok_iff {fault : Option Fault} {u : Unit} : goOn fault = .ok u ↔ fault = none := by
  cases fault <;> simp [goOn]

namespace Reader

theorem reads_text : text.Reads IsText := by
  intro d s
  unfold text IsText
  split <;> simp_all

theorem Reads.optional {read : Reader α} {P : Draft → α → Prop} (h : read.Reads P) :
    read.optional.Reads (IsOptional P) := by
  intro d o
  unfold Reader.optional
  split
  · cases o <;> simp [IsOptional]
  · next hd =>
    have hne : d ≠ null := fun he => hd he
    cases o <;> simp [IsOptional, map_eq_ok_iff, h d, hne]

theorem Reads.items {read : Reader α} {P : Draft → α → Prop} (h : read.Reads P) {ds : List Draft} {as : List α} :
    items read ds = .ok as ↔ List.Forall₂ P ds as := by
  induction ds generalizing as with
  | nil => cases as <;> simp [Reader.items]
  | cons d ds ih =>
    simp only [Reader.items, bind_eq_ok_iff, h d, ih]
    cases as <;> simp [pure, Except.pure]

theorem Reads.list {read : Reader α} {P : Draft → α → Prop} (h : read.Reads P) : read.list.Reads (IsList P) := by
  intro d as
  unfold Reader.list IsList
  split
  · simp only [bind_eq_ok_iff, h.items, goOn_eq_ok_iff]
    simp [pure, Except.pure, and_comm]
  · next hd => simp_all

end Reader

/-! ## Readers of records -/

namespace Record

variable {fields : List Field}

theorem find?_eq_none_iff {key : String} :
    fields.find? (·.name == key) = none ↔ key ∉ fields.map Field.name := by
  simp [List.find?_eq_none]

theorem mem_names_of_find? {key : String} {field : Field} (h : fields.find? (·.name == key) = some field) :
    key ∈ fields.map Field.name := by
  by_contra hkey
  rw [find?_eq_none_iff.mpr hkey] at h
  cases h

/-- The members that are taken are those called like a field; each is there once, and the others are free of faults. -/
theorem takeMembers_sound {seen : List String} {members : List (Except Fault String × Draft)}
    {given : List (String × Draft)} (h : takeMembers fields seen members = .ok given) :
    ∃ named : List (String × Draft), members = named.map (fun m => (.ok m.1, m.2)) ∧
      given = named.filter (·.1 ∈ fields.map Field.name) ∧ (given.map Prod.fst).Nodup ∧
      (∀ key ∈ given.map Prod.fst, key ∉ seen) ∧
      ∀ m ∈ named, m.1 ∉ fields.map Field.name → m.2.fault? = none := by
  induction members generalizing seen given with
  | nil =>
    cases h
    exact ⟨[], by simp⟩
  | cons m rest ih =>
    rcases m with ⟨f | key, d⟩
    · cases h
    rw [takeMembers] at h
    cases hfield : fields.find? (·.name == key) with
    | none =>
      have hkey := find?_eq_none_iff.mp hfield
      rw [hfield] at h
      obtain ⟨_, hgo, hrest⟩ := bind_eq_ok_iff.mp h
      obtain ⟨named, rfl, hgiven, hnodup, hseen, hothers⟩ := ih hrest
      refine ⟨(key, d) :: named, rfl, ?_, hnodup, hseen, ?_⟩
      · rw [hgiven, List.filter_cons_of_neg (by simpa using hkey)]
      · exact List.forall_mem_cons.mpr ⟨fun _ => goOn_eq_ok_iff.mp hgo, hothers⟩
    | some field =>
      have hkey := mem_names_of_find? hfield
      simp only [hfield] at h
      split at h
      · cases h
      next hnew =>
      obtain ⟨_, -, h⟩ := bind_eq_ok_iff.mp h
      obtain ⟨others, hrest, h⟩ := bind_eq_ok_iff.mp h
      cases h
      obtain ⟨named, rfl, hgiven, hnodup, hseen, hothers⟩ := ih hrest
      refine ⟨(key, d) :: named, rfl, ?_, ?_, ?_, ?_⟩
      · rw [hgiven, List.filter_cons_of_pos (by simpa using hkey)]
      · exact List.nodup_cons.mpr ⟨fun hm => hseen key hm List.mem_cons_self, hnodup⟩
      · refine List.forall_mem_cons.mpr ⟨by simpa using hnew, fun k hk hks => ?_⟩
        exact hseen k hk (List.mem_cons_of_mem key hks)
      · exact List.forall_mem_cons.mpr ⟨fun hne => absurd hkey hne, hothers⟩

theorem takeMembers_complete (seen : List String) {named : List (String × Draft)}
    (once : ((named.filter (·.1 ∈ fields.map Field.name)).map Prod.fst).Nodup)
    (hseen : ∀ key ∈ (named.filter (·.1 ∈ fields.map Field.name)).map Prod.fst, key ∉ seen)
    (others : ∀ m ∈ named, m.1 ∉ fields.map Field.name → m.2.fault? = none)
    (check : ∀ m ∈ named, ∀ f ∈ fields, f.name = m.1 → f.check m.2 = .ok ()) :
    takeMembers fields seen (named.map fun m => (.ok m.1, m.2)) =
      .ok (named.filter (·.1 ∈ fields.map Field.name)) := by
  induction named generalizing seen with
  | nil => rfl
  | cons m named ih =>
    obtain ⟨key, d⟩ := m
    obtain ⟨hothers, others⟩ := List.forall_mem_cons.mp others
    obtain ⟨hcheck, check⟩ := List.forall_mem_cons.mp check
    rw [List.map_cons, takeMembers]
    cases hfield : fields.find? (·.name == key) with
    | none =>
      have hkey := find?_eq_none_iff.mp hfield
      rw [List.filter_cons_of_neg (by simpa using hkey)] at once hseen ⊢
      have hgo : goOn d.fault? = .ok () := goOn_eq_ok_iff.mpr (hothers hkey)
      simp only [hgo]
      exact ih seen once hseen others check
    | some field =>
      have hkey := mem_names_of_find? hfield
      rw [List.filter_cons_of_pos (by simpa using hkey)] at once hseen ⊢
      obtain ⟨hfirst, hnew⟩ := List.forall_mem_cons.mp hseen
      obtain ⟨hnotMem, honce⟩ := List.nodup_cons.mp once
      have hpass := hcheck field (List.mem_of_find?_eq_some hfield) (by simpa using List.find?_some hfield)
      have hrest := ih (key :: seen) honce (fun k hk => by
        rw [List.mem_cons, not_or]
        exact ⟨fun he => hnotMem (he ▸ hk), hnew k hk⟩) others check
      simp only [List.contains_iff_mem, hfirst, hpass, hrest]
      rfl

/-- Items are taken in the order of the fields, as many as there are. -/
theorem takeItems_sound {fields : List Field} {items : List Draft} {given : List (String × Draft)}
    (h : takeItems fields items = .ok given) :
    items.length ≤ fields.length ∧ given = (fields.map Field.name).zip items := by
  induction items generalizing fields given with
  | nil => cases fields <;> cases h <;> simp
  | cons d items ih =>
    cases fields with
    | nil => cases h
    | cons field fields =>
      obtain ⟨_, -, h⟩ := bind_eq_ok_iff.mp h
      obtain ⟨rest, hrest, h⟩ := bind_eq_ok_iff.mp h
      cases h
      obtain ⟨hlength, rfl⟩ := ih hrest
      exact ⟨Nat.succ_le_succ hlength, rfl⟩

theorem takeItems_complete {fields : List Field} {items : List Draft} (few : items.length ≤ fields.length)
    (check : ∀ m ∈ fields.zip items, m.1.check m.2 = .ok ()) :
    takeItems fields items = .ok ((fields.map Field.name).zip items) := by
  induction items generalizing fields with
  | nil => cases fields <;> rfl
  | cons d items ih =>
    cases fields with
    | nil => cases few
    | cons field fields =>
      obtain ⟨hcheck, check⟩ := List.forall_mem_cons.mp check
      rw [takeItems, hcheck, ih (Nat.le_of_succ_le_succ few) check]
      rfl

/-- A record is read from a draft that offers its fields. -/
theorem ofDraft_sound {title : String} {d : Draft} {r : Record} (h : ofDraft title fields d = .ok r) :
    Offers (fields.map Field.name) d r.given := by
  unfold ofDraft at h
  split at h
  · obtain ⟨given, htake, h⟩ := bind_eq_ok_iff.mp h
    obtain ⟨_, hgo, h⟩ := bind_eq_ok_iff.mp h
    cases h
    obtain ⟨named, rfl, rfl, hnodup, -, hothers⟩ := takeMembers_sound htake
    rw [goOn_eq_ok_iff.mp hgo]
    exact .members hnodup hothers
  · obtain ⟨given, htake, h⟩ := bind_eq_ok_iff.mp h
    obtain ⟨_, hgo, h⟩ := bind_eq_ok_iff.mp h
    cases h
    obtain ⟨hfew, rfl⟩ := takeItems_sound htake
    rw [goOn_eq_ok_iff.mp hgo]
    exact .items (by simpa using hfew)
  · cases h

theorem map_fst_zip_sublist (names : List String) (items : List Draft) :
    ((names.zip items).map Prod.fst).Sublist names := by
  induction names generalizing items with
  | nil => simp
  | cons name names ih =>
    cases items with
    | nil => simp
    | cons d items => exact (ih items).cons_cons name

/-- A draft that offers the fields of a record is read as that record if each value can stand in its field. -/
theorem ofDraft_complete {d : Draft} {given : List (String × Draft)} (h : Offers (fields.map Field.name) d given)
    (hnames : (fields.map Field.name).Nodup)
    (check : ∀ f ∈ fields, ∀ v, given.lookup f.name = some v → f.check v = .ok ()) (title : String) :
    ∃ r, ofDraft title fields d = .ok r ∧ r.given = given := by
  cases h with
  | @members members once others =>
    have htake := takeMembers_complete [] once (by simp) others fun m hm f hf hname =>
      check f hf m.2 (hname ▸ lookup_of_mem once (List.mem_filter.mpr ⟨hm, by simpa using ⟨f, hf, hname⟩⟩))
    simp only [ofDraft, htake, goOn]
    exact ⟨_, rfl, rfl⟩
  | @items items few =>
    have hzip : (fields.map Field.name).zip items = (fields.zip items).map fun m => (m.1.name, m.2) := by
      rw [List.zip_map_left]
      rfl
    have hkeys : (((fields.map Field.name).zip items).map Prod.fst).Nodup :=
      hnames.sublist (map_fst_zip_sublist _ items)
    have htake := takeItems_complete (by simpa using few) fun m hm =>
      check m.1 (List.of_mem_zip hm).1 m.2 (lookup_of_mem hkeys (m := (m.1.name, m.2)) (by
        rw [hzip]
        exact List.mem_map_of_mem hm))
    simp only [ofDraft, htake, goOn]
    exact ⟨_, rfl, rfl⟩

theorem field_eq_ok_iff {read : Reader α} {P : Draft → α → Prop} (h : read.Reads P) {r : Record} {name : String}
    {default a : α} : r.field name read default = .ok a ↔ IsGiven P (some default) r.given name a := by
  unfold field IsGiven
  cases r.given.lookup name with
  | some d => exact h d a
  | none => simp

theorem required_eq_ok_iff {read : Reader α} {P : Draft → α → Prop} (h : read.Reads P) {r : Record} {name : String}
    {a : α} : r.required name read = .ok a ↔ IsGiven P none r.given name a := by
  unfold required IsGiven
  cases r.given.lookup name with
  | some d => exact h d a
  | none => simp

/-- A value that was given for a field can stand in it. -/
theorem check_of_isGiven {read : Reader α} {P : Draft → α → Prop} (h : read.Reads P) {default : Option α}
    {given : List (String × Draft)} {name : String} {a : α} (hg : IsGiven P default given name a) {d : Draft}
    (hd : given.lookup name = some d) : (Field.of name read).check d = .ok () := by
  unfold IsGiven at hg
  rw [hd] at hg
  simp [Field.of, (h d a).mpr hg, Except.map]

/-- A reader of records reads what offers their fields, if the values that it builds with can stand in them. -/
theorem reads_ofDraft (title : String) (hnames : (fields.map Field.name).Nodup) {build : Record → Except Failure α}
    {Q : List (String × Draft) → α → Prop} (hbuild : ∀ r a, build r = .ok a ↔ Q r.given a)
    (check : ∀ given a, Q given a → ∀ f ∈ fields, ∀ v, given.lookup f.name = some v → f.check v = .ok ()) :
    Reader.Reads (fun d => ofDraft title fields d >>= build)
      fun d a => ∃ given, Offers (fields.map Field.name) d given ∧ Q given a := by
  intro d a
  rw [bind_eq_ok_iff]
  constructor
  · rintro ⟨r, hr, ha⟩
    exact ⟨r.given, ofDraft_sound hr, (hbuild r a).mp ha⟩
  · rintro ⟨given, ho, hq⟩
    obtain ⟨r, hr, rfl⟩ := ofDraft_complete ho hnames (check given a hq) title
    exact ⟨r, hr, (hbuild r a).mpr hq⟩

end Record

/-- The data that bytes write are what the relation says of their draft, with nothing after it. -/
theorem readBytes_eq_ok_iff {read : Reader α} {P : Draft → α → Prop} (h : read.Reads P) {bytes : ByteArray} {a : α} :
    readBytes read bytes = .ok a ↔ ∃ d, ofBytes bytes = (d, none) ∧ P d a := by
  unfold readBytes
  obtain ⟨d, fault⟩ := ofBytes bytes
  simp only [bind_eq_ok_iff, goOn_eq_ok_iff, h d]
  simp [pure, Except.pure, and_comm]

end NameAdvisor.Json.Draft
