import NameAdvisor.Json.Decode
import NameAdvisor.Text.Case

/-!
# Identifiers of a source file

## Main definitions

* `IdentifierKind`: the syntactic categories of names, and their written forms.
* `Identifier`: a name found in a source file.
-/

namespace NameAdvisor

/-- The syntactic category of an identifier. -/
inductive IdentifierKind where
  /-- A function declaration. -/
  | function
  /-- A variable bound to an arrow function. -/
  | arrowFunction
  /-- A method of a class. -/
  | method
  /-- A method of an object literal. -/
  | objectMethod
  /-- Any other variable. -/
  | variableBinding
  /-- A field of a class. -/
  | property
  deriving DecidableEq, Repr, Inhabited

namespace IdentifierKind

/-- Every kind. -/
def all : List IdentifierKind :=
  [function, arrowFunction, method, objectMethod, variableBinding, property]

def name : IdentifierKind → String
  | function => "function"
  | arrowFunction => "arrow-function"
  | method => "method"
  | objectMethod => "object-method"
  | variableBinding => "variable"
  | property => "property"

/-- Whether names of the kind stand for something that is called. -/
def isFunctionLike : IdentifierKind → Bool
  | function | arrowFunction | method | objectMethod => true
  | variableBinding | property => false

/-- The kind that `s` names, the case of ASCII letters aside. -/
def ofName? (s : String) : Option IdentifierKind :=
  all.find? fun kind => Text.eqIgnoringAsciiCase kind.name s

def unknownMessage (s : String) : String :=
  "unknown identifier kind: " ++ s

def toJson (kind : IdentifierKind) : Json :=
  .string kind.name

def decode : Json.Decoder IdentifierKind :=
  Json.Decoder.enumeration all name

theorem mem_all (kind : IdentifierKind) : kind ∈ all := by
  cases kind <;> decide

end IdentifierKind

/-- A named function, method, variable or field. -/
structure Identifier where
  /-- The name as written in the source. -/
  name : String
  kind : IdentifierKind
  /-- The comments above the declaration. -/
  sourceContext : String := ""
  /-- The line of the declaration, counted from one, where it is known. -/
  line : Option Nat := none
  deriving DecidableEq, Repr, Inhabited

namespace Identifier

/-- An identifier as JSON; an unknown line is left out. -/
def toJson (i : Identifier) : Json :=
  .object ([("name", .string i.name), ("kind", i.kind.toJson), ("sourceContext", .string i.sourceContext)] ++
    match i.line with
    | some n => [("line", .nat n)]
    | none => [])

def fields : List Json.Field :=
  [.of "name" .string, .of "kind" IdentifierKind.decode, .of "sourceContext" .string,
    .of "line" (.optional .halfWord)]

/-- Reads an identifier; its context and its line may be absent. -/
def decode : Json.Decoder Identifier := fun j => do
  let r ← Json.Record.ofJson "struct Identifier" fields j
  let name ← r.required "name" .string
  let kind ← r.required "kind" IdentifierKind.decode
  let sourceContext ← r.field "sourceContext" .string ""
  let line ← r.field "line" (.optional .halfWord) none
  return { name, kind, sourceContext, line }

end Identifier

end NameAdvisor
