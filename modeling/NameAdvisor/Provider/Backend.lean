import NameAdvisor.Provider.Hosted
import NameAdvisor.Provider.LocalServer
import NameAdvisor.Provider.Assistant
import NameAdvisor.Advisor

/-!
# The backends that settings configure

## Main definitions

* `Backend`: a provider of any kind.
* `Surroundings`: the network and the programs that backends use.
* `Backend.all`: the backends of some settings, in the order in which they are tried.
* `Advisor.ofSettings`: the advisor that settings describe.
* `Backend.availability`: the table that says which backends are ready.
-/

namespace NameAdvisor

/-- A provider of any kind. -/
inductive Backend where
  | assistant (a : Assistant)
  | hosted (h : Hosted)
  | server (s : LocalServer)

/-- The network and the programs that backends use. -/
structure Surroundings where
  network : Network := .dead
  programs : Programs := .none
  deriving Inhabited

namespace Backend

def kind : Backend → ProviderKind
  | assistant a => NameSource.kind a
  | hosted h => NameSource.kind h
  | server s => NameSource.kind s

def probe : Backend → Bool × Backend
  | assistant a => let (b, a) := NameSource.probe a; (b, assistant a)
  | hosted h => let (b, h) := NameSource.probe h; (b, hosted h)
  | server s => let (b, s) := NameSource.probe s; (b, server s)

def question : Backend → PromptContext → String
  | assistant a => NameSource.question a
  | hosted h => NameSource.question h
  | server s => NameSource.question s

def complete (b : Backend) (prompt : String) : Except ProviderError String × Backend :=
  match b with
  | assistant a => let (r, a) := NameSource.complete a prompt; (r, assistant a)
  | hosted h => let (r, h) := NameSource.complete h prompt; (r, hosted h)
  | server s => let (r, s) := NameSource.complete s prompt; (r, server s)

instance : NameSource Backend where
  kind := kind
  probe := probe
  question := question
  complete := complete

def ofSettings (settings : Settings) (around : Surroundings) : ProviderKind → Backend
  | .copilot => assistant (.ofSettings settings.copilot around.programs)
  | .openai => hosted (.ofSettings .openai settings.openai around.network)
  | .anthropic => hosted (.ofSettings .anthropic settings.anthropic around.network)
  | .gemini => hosted (.ofSettings .gemini settings.gemini around.network)
  | .ollama => server (.ofSettings settings.ollama around.network)

/-- Every backend, in the order in which they are tried. -/
def all (settings : Settings) (around : Surroundings) : List Backend :=
  ProviderKind.all.map (ofSettings settings around)

/-- `s` with blanks after it up to a width. -/
def padded (width : Nat) (s : String) : String :=
  s ++ String.ofList (List.replicate (width - s.toList.length) ' ')

def availabilityLine (b : Backend) : String :=
  "  " ++ padded 10 b.kind.name ++ " " ++ padded 20 b.kind.label ++ " " ++
    (if b.probe.1 then "available" else "unavailable") ++ "\n"

def availability (settings : Settings) (around : Surroundings) : String :=
  String.join ((all settings around).map availabilityLine)

end Backend

/-- The advisor that settings describe; one that only uses rules has no backends. -/
def Advisor.ofSettings (settings : Settings) (around : Surroundings) : Advisor Backend where
  policy := settings.provider
  providers := if settings.provider = .rules then [] else Backend.all settings around

end NameAdvisor
