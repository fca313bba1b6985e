import NameAdvisor.Provider.Policy

/-!
# Settings

## Main definitions

* `AssistantSettings`, `HostedSettings`, `ServerSettings`: the settings of one backend.
* `Settings`: the policy and the settings of every backend.
* `Settings.hosted?`, `Settings.modifyHosted`: the backends that need a key, by their kind.
* `Settings.redacted`: settings fit to be shown.
* `Settings.resetTimeouts`: settings whose time limits are all acceptable.
-/

namespace NameAdvisor

/-- Settings of the command-line assistant. -/
structure AssistantSettings where
  /-- The program to start. -/
  program : String := "gh"
  /-- Limit for a question, in milliseconds. -/
  timeoutMs : Nat := 8000
  /-- Limit for finding out whether the program is there, in milliseconds. -/
  probeTimeoutMs : Nat := 5000
  deriving DecidableEq, Repr, Inhabited

/-- Settings of a backend that is reached over the network with a key. -/
structure HostedSettings where
  /-- The key; without one the backend is not available. -/
  apiKey : String := ""
  /-- The model; an empty one stands for the backend's own choice. -/
  model : String := ""
  /-- Where the backend is; an empty address stands for its public one. -/
  baseUrl : String := ""
  /-- Limit for a question, in milliseconds. -/
  timeoutMs : Nat := 10000
  deriving DecidableEq, Repr, Inhabited

namespace HostedSettings

/-- Whether there is a key. -/
def hasKey (h : HostedSettings) : Bool :=
  !(Text.trim h.apiKey).isEmpty

/-- The settings with a mask in place of a key that is not empty. -/
def masked (h : HostedSettings) : HostedSettings :=
  if h.apiKey.isEmpty then h else { h with apiKey := "***" }

end HostedSettings

/-- Settings of a server on the local machine. -/
structure ServerSettings where
  /-- The address that answers questions. -/
  endpoint : String := "http://localhost:11434/api/generate"
  model : String := "llama3"
  /-- Limit for a question, in milliseconds. -/
  timeoutMs : Nat := 10000
  /-- Limit for finding out whether the server is there, in milliseconds. -/
  probeTimeoutMs : Nat := 3000
  deriving DecidableEq, Repr, Inhabited

/-- The policy and the settings of every backend. -/
structure Settings where
  provider : ProviderPolicy := .rules
  copilot : AssistantSettings := {}
  openai : HostedSettings := { model := "gpt-4o-mini" }
  anthropic : HostedSettings := { model := "claude-3-5-haiku-latest" }
  gemini : HostedSettings := { model := "gemini-1.5-flash" }
  ollama : ServerSettings := {}
  deriving DecidableEq, Repr, Inhabited

namespace Settings

/-- The settings of the backend `kind` if it is one that needs a key. -/
def hosted? (s : Settings) : ProviderKind → Option HostedSettings
  | .openai => some s.openai
  | .anthropic => some s.anthropic
  | .gemini => some s.gemini
  | .copilot | .ollama => none

/-- The settings with those of the backend `kind` changed; a backend that needs no key stays as it is. -/
def modifyHosted (s : Settings) (kind : ProviderKind) (change : HostedSettings → HostedSettings) : Settings :=
  match kind with
  | .openai => { s with openai := change s.openai }
  | .anthropic => { s with anthropic := change s.anthropic }
  | .gemini => { s with gemini := change s.gemini }
  | .copilot | .ollama => s

/-- The settings with every key masked. -/
def redacted (s : Settings) : Settings :=
  ProviderKind.all.foldl (fun s kind => s.modifyHosted kind HostedSettings.masked) s

/-- The smallest acceptable time limit. -/
def minTimeoutMs : Nat := 1000

/-- The largest acceptable time limit. -/
def maxTimeoutMs : Nat := 120000

def acceptsTimeout (ms : Nat) : Bool :=
  minTimeoutMs ≤ ms && ms ≤ maxTimeoutMs

/-- `ms` if it is acceptable, and `default` otherwise. -/
def timeoutOr (default ms : Nat) : Nat :=
  if acceptsTimeout ms then ms else default

/-- The settings with each time limit that is not acceptable put back to its default. -/
def resetTimeouts (s : Settings) : Settings :=
  let d : Settings := {}
  { s with
    copilot := { s.copilot with
      timeoutMs := timeoutOr d.copilot.timeoutMs s.copilot.timeoutMs
      probeTimeoutMs := timeoutOr d.copilot.probeTimeoutMs s.copilot.probeTimeoutMs }
    openai := { s.openai with timeoutMs := timeoutOr d.openai.timeoutMs s.openai.timeoutMs }
    anthropic := { s.anthropic with timeoutMs := timeoutOr d.anthropic.timeoutMs s.anthropic.timeoutMs }
    gemini := { s.gemini with timeoutMs := timeoutOr d.gemini.timeoutMs s.gemini.timeoutMs }
    ollama := { s.ollama with
      timeoutMs := timeoutOr d.ollama.timeoutMs s.ollama.timeoutMs
      probeTimeoutMs := timeoutOr d.ollama.probeTimeoutMs s.ollama.probeTimeoutMs } }

/-- The seven time limits. -/
def timeouts (s : Settings) : List Nat :=
  [s.copilot.timeoutMs, s.copilot.probeTimeoutMs, s.openai.timeoutMs, s.anthropic.timeoutMs, s.gemini.timeoutMs,
    s.ollama.timeoutMs, s.ollama.probeTimeoutMs]

end Settings

end NameAdvisor
