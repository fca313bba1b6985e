import NameAdvisor.Proofs.Json.Record

/-!
# What an object says

Of members with one name the last one counts, and a member that is null says nothing.  What is said under a name is
what stands there after the object was laid over another one; where nothing is said the other one's value stays.

## Main definitions

* `Json.Members.last?`: the value of the last member of a name.
* `Json.said?`: what an object says under a name.
* `Json.part`: the object under a name.
* `Json.laid`: the members of one object laid over those of another.
-/

namespace NameAdvisor.Json

/-! ## The last member of a name -/

namespace Members

/-- The value of the last member called `key`. -/
def last? (key : String) (members : Members) : Option Json :=
  find? key members.reverse

theorem last?_cons (key k : String) (v : Json) (rest : Members) :
    last? key ((k, v) :: rest) = (last? key rest).or (if key = k then some v else none) := by
  rw [last?, find?, List.reverse_cons, List.lookup_append]
  exact congrArg _ (find?_cons key k v [])

theorem find?_insert (key other : String) (value : Json) (members : Members) :
    find? other (insert key value members) = if other = key then some value else find? other members := by
  by_cases he : other = key
  · rw [he, find?_insert_self, if_pos rfl]
  · rw [find?_insert_of_ne he, if_neg he]

/-- Ordering keeps the last of repeated names. -/
theorem find?_sorted_eq_last? (key : String) (members : Members) : find? key (sorted members) = last? key members := by
  have hfold : ∀ acc, find? key (members.foldl (fun acc m => insert m.1 m.2 acc) acc) =
      (last? key members).or (find? key acc) := by
    induction members with
    | nil => exact fun acc => rfl
    | cons m rest ih =>
      intro acc
      rw [List.foldl_cons, ih, find?_insert, last?_cons, Option.or_assoc]
      split <;> simp
  rw [sorted, hfold, find?_nil, Option.or_none]

theorem last?_canonicalMembers (key : String) (members : Members) :
    last? key (canonicalMembers members) = (last? key members).map canonical := by
  rw [canonicalMembers_eq_map, last?, ← List.map_reverse, find?_map, last?]

end Members

/-! ## What is said under a name -/

/-- What `j` says under a name: the value of the last member of that name, unless it is null. -/
def said? (key : String) : Json → Option Json
  | .object members => (Members.last? key members).filter (!·.isNull)
  | _ => none

def isObject : Json → Bool
  | .object _ => true
  | _ => false

/-- The object under a name; where there is none, one that says nothing. -/
def part (key : String) (j : Json) : Json :=
  (said? key j).getD (.object [])

/-- What is said under a name, as `read` reads it, and `default` where nothing is said. -/
def saidOr {α : Type} (key : String) (read : Json → Option α) (default : α) (j : Json) : α :=
  ((said? key j).bind read).getD default

theorem isNull_canonical (j : Json) : j.canonical.isNull = j.isNull := by
  cases j <;> rfl

theorem canonical_object (members : Members) :
    canonical (.object members) = .object (Members.sorted (canonicalMembers members)) := by
  rw [canonical]

/-! ## Laying one object over another -/

/-- The members of one object laid over those of another, both in order of names. -/
def laid (base members : Members) : Members :=
  overlayMembers (Members.sorted (canonicalMembers base)) (Members.sorted (canonicalMembers members))

theorem overlay_canonical_object (base members : Members) :
    overlay (canonical (.object base)) (canonical (.object members)) = .object (laid base members) := by
  simp only [canonical_object, overlay, laid]

/-- What a name stands for after an object was laid over another one. -/
theorem find?_laid (key : String) (base members : Members) :
    Members.find? key (laid base members) =
      match said? key (.object members) with
      | none => (Members.last? key base).map canonical
      | some value => some (overlaid ((Members.last? key base).map canonical) value.canonical) := by
  rw [laid, find?_overlayMembers (Members.ordered_sorted _).nodup, Members.find?_sorted_eq_last?,
    Members.find?_sorted_eq_last?, Members.last?_canonicalMembers, Members.last?_canonicalMembers, said?]
  cases Members.last? key members with
  | none => rfl
  | some value => cases hv : value.isNull <;> simp [Option.filter, hv, isNull_canonical]

/-- A scalar that is said replaces the one it is laid over. -/
theorem find?_laid_of_isScalar {key : String} {base members : Members} {old : Json}
    (hb : Members.last? key base = some old) (ho : old.isScalar)
    (hs : ∀ v, said? key (.object members) = some v → v.isScalar) :
    Members.find? key (laid base members) = some ((said? key (.object members)).getD old) := by
  rw [find?_laid, hb, Option.map_some, canonical_of_isScalar ho]
  cases hv : said? key (.object members) with
  | none => rfl
  | some v => simp [overlaid, canonical_of_isScalar (hs v hv), overlay_of_isScalar old (hs v hv)]

theorem isObject_part {key : String} {j : Json} (h : (said? key j).all isObject = true) :
    (part key j).isObject = true := by
  rw [part]
  cases hv : said? key j with
  | none => rfl
  | some v => simpa [hv] using h

theorem exists_members_of_isObject {j : Json} (h : j.isObject = true) : ∃ members, j = .object members := by
  cases j with
  | object members => exact ⟨members, rfl⟩
  | _ => cases h

/-- What is said is laid over the object that it stands for. -/
theorem find?_laid_of_isObject {key : String} {base members : Members} {old : Json}
    (hb : Members.last? key base = some old) (ho : old.isObject = true) :
    Members.find? key (laid base members) = some (overlay old.canonical (part key (.object members)).canonical) := by
  obtain ⟨inner, rfl⟩ := exists_members_of_isObject ho
  rw [find?_laid, hb, Option.map_some, part]
  cases hv : said? key (.object members) with
  | none => simp [canonical_object, overlay, canonicalMembers, Members.sorted]
  | some v => simp [overlaid]

/-! ## Reading what is said -/

/-- A word of 64 bits. -/
def asWord? : Json → Option Nat
  | .number (.natural n) => if n < Nat.pow 2 64 then some n else none
  | _ => none

theorem asString?_eq_some {j : Json} {s : String} (h : j.asString? = some s) : j = .string s := by
  cases j <;> simp_all [asString?]

theorem asWord?_eq_some {j : Json} {n : Nat} (h : j.asWord? = some n) : j = .nat n ∧ n < Nat.pow 2 64 := by
  unfold asWord? at h
  split at h
  · split at h
    · next hn =>
      cases h
      exact ⟨rfl, hn⟩
    · cases h
  · cases h

section Field

variable {α : Type} {read : Json → Option α} {write : α → Json}

/-- What stands in a field whose values `write` writes and `read` reads, after an object was laid over another one. -/
theorem find?_laid_field (hw : ∀ a, (write a).isScalar) (hr : ∀ {j a}, read j = some a → j = write a) {key : String}
    {base members : Members} {old : α} (hb : Members.last? key base = some (write old))
    (hs : (said? key (.object members)).all (fun v => (read v).isSome) = true) :
    Members.find? key (laid base members) = some (write (saidOr key read old (.object members))) := by
  have hread : ∀ v, said? key (.object members) = some v → ∃ a, read v = some a ∧ v = write a := by
    intro v hv
    rw [hv, Option.all_some] at hs
    obtain ⟨a, ha⟩ := Option.isSome_iff_exists.mp hs
    exact ⟨a, ha, hr ha⟩
  have hscalar : ∀ v, said? key (.object members) = some v → v.isScalar := by
    intro v hv
    obtain ⟨a, -, rfl⟩ := hread v hv
    exact hw a
  rw [find?_laid_of_isScalar hb (hw old) hscalar, saidOr]
  cases hv : said? key (.object members) with
  | none => rfl
  | some v =>
    obtain ⟨a, ha, rfl⟩ := hread v hv
    simp [ha]

end Field

def isText (j : Json) : Bool := j.asString?.isSome

def isWord (j : Json) : Bool := j.asWord?.isSome

theorem find?_laid_text {key : String} {base members : Members} {old : String}
    (hb : Members.last? key base = some (.string old)) (hs : (said? key (.object members)).all isText = true) :
    Members.find? key (laid base members) = some (.string (saidOr key asString? old (.object members))) :=
  find?_laid_field (fun _ => rfl) asString?_eq_some hb hs

theorem find?_laid_word {key : String} {base members : Members} {old : Nat}
    (hb : Members.last? key base = some (.nat old)) (hs : (said? key (.object members)).all isWord = true) :
    Members.find? key (laid base members) = some (.nat (saidOr key asWord? old (.object members))) :=
  find?_laid_field (fun _ => rfl) (fun hw => (asWord?_eq_some hw).1) hb hs

/-- An object that has given values under their names carries the object that they make up. -/
theorem carries_of_forall {members ks : Members} (h : ∀ m ∈ ks, Members.find? m.1 members = some m.2) :
    Carries (.object members) (.object ks) := by
  intro path v hv hl
  cases path with
  | nil =>
    rw [look_nil] at hl
    cases hl
    cases hv
  | cons key path =>
    obtain ⟨_, w, he, hf, hl⟩ := look_cons_eq_some.mp hl
    cases he
    have hm := Members.mem_of_find? hf
    exact look_cons_eq_some.mpr ⟨members, w, rfl, h _ hm, hl⟩

theorem lt_of_saidOr_asWord? {key : String} {default : Nat} (hd : default < Nat.pow 2 64) (j : Json) :
    saidOr key asWord? default j < Nat.pow 2 64 := by
  rw [saidOr]
  cases hw : (said? key j).bind asWord? with
  | none => exact hd
  | some n =>
    obtain ⟨v, -, hv⟩ := Option.bind_eq_some_iff.mp hw
    exact (asWord?_eq_some hv).2

end NameAdvisor.Json
