import NameAdvisor.Json.Decode
import NameAdvisor.Text.Case

/-!
# The providers of names

## Main definitions

* `ProviderKind`: the backends that can be asked for names.
-/

namespace NameAdvisor

/-- A backend that can be asked for names. -/
inductive ProviderKind where
  /-- A local command-line assistant. -/
  | copilot
  /-- Chat completions. -/
  | openai
  /-- A messages interface. -/
  | anthropic
  /-- Content generation. -/
  | gemini
  /-- A server on the local machine. -/
  | ollama
  deriving DecidableEq, Repr, Inhabited

namespace ProviderKind

/-- Every kind, in the order in which they are tried. -/
def all : List ProviderKind :=
  [copilot, openai, anthropic, gemini, ollama]

/-- The name of a kind in settings. -/
def name : ProviderKind → String
  | copilot => "copilot"
  | openai => "openai"
  | anthropic => "anthropic"
  | gemini => "gemini"
  | ollama => "ollama"

/-- The name of a kind in reports. -/
def label : ProviderKind → String
  | copilot => "GitHub Copilot CLI"
  | openai => "OpenAI"
  | anthropic => "Anthropic Claude"
  | gemini => "Google Gemini"
  | ollama => "Ollama"

/-- The kind that `s` names, the case of ASCII letters aside. -/
def ofName? (s : String) : Option ProviderKind :=
  all.find? fun kind => Text.eqIgnoringAsciiCase kind.name s

def unknownMessage (s : String) : String :=
  "unknown provider: " ++ s

def toJson (kind : ProviderKind) : Json :=
  .string kind.name

def decode : Json.Decoder ProviderKind :=
  Json.Decoder.enumeration all name

theorem mem_all (kind : ProviderKind) : kind ∈ all := by
  cases kind <;> decide

end ProviderKind

end NameAdvisor
