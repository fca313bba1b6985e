import NameAdvisor.Json.Decode
import NameAdvisor.Json.Draft

/-!
# Reading data out of drafts

Readers of texts, lists and records that go through a draft in the order of its bytes, and fail at the first fault or
mismatch that they meet.  Members that are not fields of a record are passed over.

## Main definitions

* `Json.Failure`: why bytes are not data of some type.
* `Json.Draft.Reader`: a reader of data of one type.
* `Json.Draft.Record`: the named fields that a draft offers.
* `Json.Draft.readBytes`: the data that bytes write.
-/

namespace NameAdvisor.Json

/-- Why bytes are not data of some type. -/
inductive Failure where
  /-- They are not JSON. -/
  | notJson (fault : Fault)
  /-- They are JSON of the wrong shape. -/
  | wrongShape (mismatch : Mismatch)
  deriving DecidableEq, Repr

namespace Draft

/-- A reader of data of type `α`. -/
abbrev Reader (α : Type) : Type := Draft → Except Failure α

/-- Why a draft cannot be read where something else is wanted: a number or a string is read before it is refused. -/
def refuse (wanted : String) : Draft → Failure
  | null => .wrongShape (.wrongType Json.null.describe wanted)
  | bool b => .wrongShape (.wrongType (Json.bool b).describe wanted)
  | number (.ok n) _ => .wrongShape (.wrongType (Json.number n).describe wanted)
  | number (.error f) _ => .notJson f
  | string (.ok s) _ => .wrongShape (.wrongType (Json.string s).describe wanted)
  | string (.error f) _ => .notJson f
  | array _ _ => .wrongShape (.wrongType (Json.array []).describe wanted)
  | object _ _ => .wrongShape (.wrongType (Json.object []).describe wanted)
  | broken f => .notJson f

/-- Goes on where there is no fault. -/
def goOn : Option Fault → Except Failure Unit
  | none => .ok ()
  | some f => .error (.notJson f)

namespace Reader

def text : Reader String
  | string (.ok s) _ => .ok s
  | d => .error (d.refuse "a string")

/-- Reads `null` as nothing, and anything else by `read`. -/
def optional {α : Type} (read : Reader α) : Reader (Option α)
  | null => .ok none
  | d => (read d).map some

def items {α : Type} (read : Reader α) : List Draft → Except Failure (List α)
  | [] => .ok []
  | d :: rest => do
    let a ← read d
    let as ← items read rest
    return a :: as

def list {α : Type} (read : Reader α) : Reader (List α)
  | array ds fault => do
    let as ← items read ds
    goOn fault
    return as
  | d => .error (d.refuse "a sequence")

end Reader

/-- A field of a record: its name, and what a draft must pass to stand in it. -/
structure Field where
  name : String
  check : Draft → Except Failure Unit

/-- The field `name` whose values `read` reads. -/
def Field.of {α : Type} (name : String) (read : Reader α) : Field :=
  ⟨name, fun d => (read d).map fun _ => ()⟩

/-- The fields that a draft offers to a reader of records. -/
structure Record where
  /-- The name of the type, as messages give it. -/
  title : String
  /-- The number of fields of the type. -/
  size : Nat
  /-- The values given, by the names of their fields. -/
  given : List (String × Draft)
  /-- Whether the values were given in order instead of by name. -/
  positional : Bool

namespace Record

/-- The members that are fields, checked in turn: none occurs twice, and each has a value that can stand in it. -/
def takeMembers (fields : List Field) (seen : List String) :
    List (Except Fault String × Draft) → Except Failure (List (String × Draft))
  | [] => .ok []
  | (.error f, _) :: _ => .error (.notJson f)
  | (.ok key, d) :: rest =>
    match fields.find? (·.name == key) with
    | none => do
      goOn d.fault?
      takeMembers fields seen rest
    | some field =>
      if seen.contains key then .error (.wrongShape (.repeatedField key))
      else do
        field.check d
        let given ← takeMembers fields (key :: seen) rest
        return (key, d) :: given

/-- The items as fields, in the order of these, checked in turn; there may be fewer. -/
def takeItems : List Field → List Draft → Except Failure (List (String × Draft))
  | _, [] => .ok []
  | [], _ :: _ => .error (.notJson .malformed)
  | field :: fields, d :: rest => do
    field.check d
    let given ← takeItems fields rest
    return (field.name, d) :: given

/-- The fields that `d` offers, all of them checked. -/
def ofDraft (title : String) (fields : List Field) : Draft → Except Failure Record
  | object members fault => do
    let given ← takeMembers fields [] members
    goOn fault
    return ⟨title, fields.length, given, false⟩
  | array items fault => do
    let given ← takeItems fields items
    goOn fault
    return ⟨title, fields.length, given, true⟩
  | d => .error (d.refuse title)

def absent (r : Record) (name : String) : Mismatch :=
  if r.positional then
    .wrongLength r.given.length
      (r.title ++ " with " ++ toString r.size ++ if r.size = 1 then " element" else " elements")
  else .missingField name

/-- The value of a field that must be there. -/
def required {α : Type} (r : Record) (name : String) (read : Reader α) : Except Failure α :=
  match r.given.lookup name with
  | some d => read d
  | none => .error (.wrongShape (r.absent name))

/-- The value of a field, and `default` if it is absent. -/
def field {α : Type} (r : Record) (name : String) (read : Reader α) (default : α) : Except Failure α :=
  match r.given.lookup name with
  | some d => read d
  | none => .ok default

end Record

/-- The data that bytes write, with nothing but white space after it. -/
def readBytes {α : Type} (read : Reader α) (bytes : ByteArray) : Except Failure α := do
  let (d, fault) := ofBytes bytes
  let a ← read d
  goOn fault
  return a

end Draft

end NameAdvisor.Json
