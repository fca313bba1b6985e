import NameAdvisor.Proofs.Json.Record
import NameAdvisor.Proofs.Json.RoundTrip

/-!
# Data that JSON keeps

A type of data comes with the values that its readers can give at all: a line number is a word of 32 bits, a time limit
one of 64.  Writing such data and reading it again gives it back, and nothing else is ever read.  From the two it
follows that what was read and is written is in a normal form.

## Main definitions

* `Json.Lossless`: a writer and a reader of data that undo each other.
-/

namespace NameAdvisor.Json

/-- What is written of data in range is read back, and all that is read is in range. -/
structure Lossless {α : Type} (InRange : α → Prop) (write : α → Json) (read : Decoder α) : Prop where
  read_write {a : α} : InRange a → read (write a) = .ok a
  inRange {j : Json} {a : α} : read j = .ok a → InRange a

section Check

variable {α : Type} {InRange : α → Prop} {write : α → Json} {read : Decoder α}

/-- Data that was read stays what it is when it is written and read again, whatever it was read from. -/
theorem Lossless.read_write_of_read (h : Lossless InRange write read) {j : Json} {a : α} (hj : read j = .ok a) :
    read (write a) = .ok a :=
  h.read_write (h.inRange hj)

end Check

namespace Lossless

theorem string : Lossless (fun _ => True) Json.string Decoder.string where
  read_write _ := rfl
  inRange _ := trivial

theorem natBelow (limit : Nat) (title : String) : Lossless (· < limit) nat (Decoder.natBelow limit title) where
  read_write h := if_pos h
  inRange {j n} h := by
    unfold Decoder.natBelow at h
    split at h
    · split at h
      · next hlt => rwa [Except.ok.inj h] at hlt
      · cases h
    · cases h
    · cases h

theorem word : Lossless (· < Nat.pow 2 64) nat Decoder.word :=
  natBelow _ _

theorem halfWord : Lossless (· < Nat.pow 2 32) nat Decoder.halfWord :=
  natBelow _ _

variable {α : Type} {InRange : α → Prop} {write : α → Json} {read : Decoder α}

/-- Nothing is kept as `null`, as long as that is not written for something. -/
theorem optional (h : Lossless InRange write read) (hnull : ∀ a, write a ≠ .null) :
    Lossless (fun o : Option α => ∀ a ∈ o, InRange a) (fun o => o.elim .null write) (Decoder.optional read) where
  read_write {o} ho := by
    cases o with
    | none => rfl
    | some a =>
      have hread := h.read_write (ho a rfl)
      rw [Option.elim_some, Decoder.optional, hread, Except.map]
      exact hnull a
  inRange {j o} hj a ha := by
    obtain rfl : o = some a := ha
    unfold Decoder.optional at hj
    split at hj
    · cases hj
    · obtain ⟨b, hb, he⟩ := map_eq_ok_iff.mp hj
      cases he
      exact h.inRange hb

theorem list (h : Lossless InRange write read) :
    Lossless (fun as : List α => ∀ a ∈ as, InRange a) (fun as => .array (as.map write)) (Decoder.list read) where
  read_write {as} has := by
    rw [Decoder.list]
    induction as with
    | nil => rfl
    | cons a as ih =>
      obtain ⟨ha, has⟩ := List.forall_mem_cons.mp has
      rw [List.map_cons, Decoder.items, h.read_write ha, ih has]
      rfl
  inRange {j as} hj := by
    cases j with
    | array js =>
      rw [Decoder.list] at hj
      induction js generalizing as with
      | nil =>
        cases hj
        exact List.forall_mem_nil _
      | cons j js ih =>
        obtain ⟨b, hb, hj⟩ := bind_eq_ok_iff.mp hj
        obtain ⟨bs, hbs, hj⟩ := bind_eq_ok_iff.mp hj
        cases hj
        exact List.forall_mem_cons.mpr ⟨h.inRange hb, ih hbs⟩
    | _ => cases hj

/-- The variants of an enumeration are kept by their names if no two have the same one. -/
theorem enumeration {variants : List α} {name : α → String} (hmem : ∀ a, a ∈ variants)
    (hname : Function.Injective name) :
    Lossless (fun _ => True) (fun a => .string (name a)) (Decoder.enumeration variants name) where
  read_write {a} _ := by
    have hfind : variants.find? (name · == name a) = some a := by
      have hsome : (variants.find? (name · == name a)).isSome := List.find?_isSome.mpr ⟨a, hmem a, by simp⟩
      obtain ⟨b, hb⟩ := Option.isSome_iff_exists.mp hsome
      have he : name b = name a := by simpa using List.find?_some hb
      rw [hb, hname he]
    rw [Decoder.enumeration, Decoder.enumeration.pick, hfind]
  inRange _ := trivial

theorem text {read : String → Except String α} {name : α → String} (h : ∀ a, read (name a) = .ok a) :
    Lossless (fun _ => True) (fun a => .string (name a)) (Decoder.text read) where
  read_write {a} _ := by
    rw [Decoder.text, h a]
    rfl
  inRange _ := trivial

end Lossless

/-! ## Records -/

namespace Record

/-- An object is a record if no name occurs twice and its members can stand in the fields. -/
theorem ofJson_object_of_nodup {members : Members} (hm : (Members.names members).Nodup) (title : String)
    {fields : List Field} (h : ∀ f ∈ fields, ∀ v, Members.find? f.name members = some v → f.check v = .ok ()) :
    ofJson title fields (.object members) = .ok ⟨title, fields.length, members, false⟩ := by
  simp [ofJson, checkMembers_eq_ok hm h, Except.map]

end Record

namespace Lossless

variable {α : Type} {InRange : α → Prop} {write : α → Json} {read : Decoder α} {r : Record} {name : String} {a : α}

/-- A field is in range if its default is. -/
theorem inRange_of_field (h : Lossless InRange write read) {default : α} (hd : InRange default)
    (ha : r.field name read default = .ok a) : InRange a := by
  unfold Record.field at ha
  split at ha
  · exact h.inRange ha
  · rwa [Except.ok.inj ha] at hd

end Lossless

end NameAdvisor.Json
