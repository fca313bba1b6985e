import NameAdvisor.Identifier

/-!
# What is known of a file

## Main definitions

* `Domain`: what a file is about.
* `FileContext`: the domain, imports and header comment of a file.
* `PromptContext`: an identifier together with the context of its file.
-/

namespace NameAdvisor

/-- What a file is about, as far as naming is concerned. -/
inductive Domain where
  /-- It defines components of a user interface. -/
  | reactComponent
  /-- It uses state hooks. -/
  | reactHooks
  /-- It is a test suite. -/
  | testing
  /-- It talks to a network interface. -/
  | api
  /-- Anything else. -/
  | general
  deriving DecidableEq, Repr, Inhabited

namespace Domain

/-- Every domain, the more specific first. -/
def all : List Domain :=
  [reactComponent, reactHooks, testing, api, general]

def name : Domain → String
  | reactComponent => "react-component"
  | reactHooks => "react-hooks"
  | testing => "testing"
  | api => "api"
  | general => "general"

/-- Whether the conventions for components and hooks apply. -/
def isReact : Domain → Bool
  | reactComponent | reactHooks => true
  | testing | api | general => false

def toJson (d : Domain) : Json :=
  .string d.name

def decode : Json.Decoder Domain :=
  Json.Decoder.enumeration all name

theorem mem_all (d : Domain) : d ∈ all := by
  cases d <;> decide

end Domain

/-- The context that all identifiers of a file share. -/
structure FileContext where
  domain : Domain := .general
  /-- The modules imported by name, in order. -/
  imports : List String := []
  /-- The first comment that stands on lines of its own. -/
  headerComment : String := ""
  deriving DecidableEq, Repr, Inhabited

namespace FileContext

def toJson (c : FileContext) : Json :=
  .object [("domain", c.domain.toJson), ("imports", .strings c.imports), ("headerComment", .string c.headerComment)]

def fields : List Json.Field :=
  [.of "domain" Domain.decode, .of "imports" (.list .string), .of "headerComment" .string]

/-- Reads a file context; absent fields take their defaults. -/
def decode : Json.Decoder FileContext := fun j => do
  let r ← Json.Record.ofJson "struct FileContext" fields j
  let domain ← r.field "domain" Domain.decode .general
  let imports ← r.field "imports" (.list .string) []
  let headerComment ← r.field "headerComment" .string ""
  return { domain, imports, headerComment }

end FileContext

/-- An identifier and its surroundings, as a question to a provider of names. -/
structure PromptContext where
  /-- The present name. -/
  current : String
  kind : IdentifierKind
  /-- Free text about the declaration. -/
  context : String
  file : FileContext
  deriving DecidableEq, Repr, Inhabited

namespace PromptContext

def toJson (c : PromptContext) : Json :=
  .object [("original", .string c.current), ("kind", c.kind.toJson), ("context", .string c.context),
    ("file", c.file.toJson)]

def fields : List Json.Field :=
  [.of "original" .string, .of "kind" IdentifierKind.decode, .of "context" .string, .of "file" FileContext.decode]

/-- Reads a question, of which every field must be there. -/
def decode : Json.Decoder PromptContext := fun j => do
  let r ← Json.Record.ofJson "struct PromptContext" fields j
  let current ← r.required "original" .string
  let kind ← r.required "kind" IdentifierKind.decode
  let context ← r.required "context" .string
  let file ← r.required "file" FileContext.decode
  return { current, kind, context, file }

end PromptContext

end NameAdvisor
