import NameAdvisor.Json.Basic
import NameAdvisor.Text.Quoted

/-!
# Reading data out of JSON values

Decoders of texts, numbers, lists, enumerations and records, and the reasons for which a value is refused.
A record is read from an object by the names of its fields, or from an array in the order of its fields.

## Main definitions

* `Json.Mismatch`: why a value has the wrong shape, with its wording.
* `Json.Decoder`: a reader of data of one type.
* `Json.Record`: the named fields that a value offers.
-/

namespace NameAdvisor.Json

/-- Why a value cannot be read as data of some type. -/
inductive Mismatch where
  /-- Data of another type was found. -/
  | wrongType (found wanted : String)
  /-- The value is of the right type and out of its range. -/
  | wrongValue (found wanted : String)
  /-- A sequence has the wrong number of elements. -/
  | wrongLength (length : Nat) (wanted : String)
  /-- A name is none of an enumeration's. -/
  | unknownVariant (found : String) (known : List String)
  /-- A field that has no default is absent. -/
  | missingField (name : String)
  /-- A field is given twice. -/
  | repeatedField (name : String)
  /-- A text was refused by the rules of its type. -/
  | refused (reason : String)
  deriving DecidableEq, Repr

/-- `name` between backticks. -/
def ticked (name : String) : String :=
  "`" ++ name ++ "`"

/-- The names that were possible, as a message lists them. -/
def oneOf : List String → String
  | [] => "there are no variants"
  | [a] => "expected " ++ ticked a
  | [a, b] => "expected " ++ ticked a ++ " or " ++ ticked b
  | names => "expected one of " ++ ", ".intercalate (names.map ticked)

def Mismatch.message : Mismatch → String
  | .wrongType found wanted => s!"invalid type: {found}, expected {wanted}"
  | .wrongValue found wanted => s!"invalid value: {found}, expected {wanted}"
  | .wrongLength length wanted => s!"invalid length {length}, expected {wanted}"
  | .unknownVariant found known => "unknown variant " ++ ticked found ++ ", " ++ oneOf known
  | .missingField name => "missing field " ++ ticked name
  | .repeatedField name => "duplicate field " ++ ticked name
  | .refused reason => reason

def Number.describe : Number → String
  | .double x => "floating point " ++ ticked x.text
  | n => "integer " ++ ticked n.text

def describe : Json → String
  | .null => "null"
  | .bool true => "boolean " ++ ticked "true"
  | .bool false => "boolean " ++ ticked "false"
  | .number n => n.describe
  | .string s => "string " ++ Text.quoted s
  | .array _ => "sequence"
  | .object _ => "map"

/-- A reader of data of type `α`. -/
abbrev Decoder (α : Type) : Type := Json → Except Mismatch α

namespace Decoder

def string : Decoder String
  | .string s => .ok s
  | j => .error (.wrongType j.describe "a string")

/-- Reads a whole number below `limit`; `title` is the name of the type. -/
def natBelow (limit : Nat) (title : String) : Decoder Nat
  | .number (.natural n) =>
    if n < limit then .ok n else .error (.wrongValue (Number.natural n).describe title)
  | .number (.negative n) => .error (.wrongValue (Number.negative n).describe title)
  | j => .error (.wrongType j.describe title)

/-- Reads a 64-bit word. -/
def word : Decoder Nat := natBelow (Nat.pow 2 64) "u64"

def halfWord : Decoder Nat := natBelow (Nat.pow 2 32) "u32"

/-- Reads `null` as nothing, and anything else by `decode`. -/
def optional {α : Type} (decode : Decoder α) : Decoder (Option α)
  | .null => .ok none
  | j => (decode j).map some

def items {α : Type} (decode : Decoder α) : List Json → Except Mismatch (List α)
  | [] => .ok []
  | j :: rest => do
    let a ← decode j
    let as ← items decode rest
    return a :: as

def list {α : Type} (decode : Decoder α) : Decoder (List α)
  | .array js => items decode js
  | j => .error (.wrongType j.describe "a sequence")

/-- Reads the name of one of `variants`, or an object whose only member has such a name and the value `null`. -/
def enumeration {α : Type} (variants : List α) (name : α → String) : Decoder α
  | .string s => pick s
  | .object [(key, value)] => do
    let a ← pick key
    if value.isNull then return a
    else .error (.wrongType value.describe "unit")
  | .object _ => .error (.wrongValue "map" "map with a single key")
  | j => .error (.wrongType j.describe "string or map")
where
  /-- The variant called `s`. -/
  pick (s : String) : Except Mismatch α :=
    match variants.find? (name · == s) with
    | some a => .ok a
    | none => .error (.unknownVariant s (variants.map name))

/-- Reads a text by `read`, which may refuse it with a reason. -/
def text {α : Type} (read : String → Except String α) : Decoder α
  | .string s => (read s).mapError .refused
  | j => .error (.wrongType j.describe "a string")

end Decoder

/-- A field of a record: its name, and what a value must pass to stand in it. -/
structure Field where
  name : String
  check : Json → Except Mismatch Unit

/-- The field `name` whose values `decode` reads. -/
def Field.of {α : Type} (name : String) (decode : Decoder α) : Field :=
  ⟨name, fun j => (decode j).map fun _ => ()⟩

/-- The fields that a value offers to a reader of records. -/
structure Record where
  /-- The name of the type, as messages give it. -/
  title : String
  /-- The number of fields of the type. -/
  size : Nat
  /-- The values given, by the names of their fields. -/
  given : Members
  /-- Whether the values were given in order instead of by name. -/
  positional : Bool

namespace Record

/-- Checks the members in turn: no field of the record occurs twice, and each has a value that can stand in it. -/
def checkMembers (fields : List Field) (seen : List String) : Members → Except Mismatch Unit
  | [] => .ok ()
  | (key, value) :: rest =>
    match fields.find? (·.name == key) with
    | none => checkMembers fields seen rest
    | some field =>
      if seen.contains key then .error (.repeatedField key)
      else
        match field.check value with
        | .error e => .error e
        | .ok () => checkMembers fields (key :: seen) rest

/-- Checks the items in turn against the fields in their order. -/
def checkItems : List Field → List Json → Except Mismatch Unit
  | field :: fields, j :: rest =>
    match field.check j with
    | .error e => .error e
    | .ok () => checkItems fields rest
  | _, _ => .ok ()

/-- The fields that `j` offers, all of them checked. -/
def ofJson (title : String) (fields : List Field) (j : Json) : Except Mismatch Record :=
  match j with
  | .object members => (checkMembers fields [] members).map fun _ => ⟨title, fields.length, members, false⟩
  | .array items => do
    checkItems fields items
    if fields.length < items.length then .error (.wrongLength items.length "fewer elements in array")
    return ⟨title, fields.length, (fields.map (·.name)).zip items, true⟩
  | j => .error (.wrongType j.describe title)

def absent (r : Record) (name : String) : Mismatch :=
  if r.positional then
    .wrongLength r.given.length
      (r.title ++ " with " ++ toString r.size ++ if r.size = 1 then " element" else " elements")
  else .missingField name

/-- The value of a field that must be there. -/
def required {α : Type} (r : Record) (name : String) (decode : Decoder α) : Except Mismatch α :=
  match Members.find? name r.given with
  | some j => decode j
  | none => .error (r.absent name)

/-- The value of a field, and `default` if it is absent. -/
def field {α : Type} (r : Record) (name : String) (decode : Decoder α) (default : α) : Except Mismatch α :=
  match Members.find? name r.given with
  | some j => decode j
  | none => .ok default

end Record

end NameAdvisor.Json
