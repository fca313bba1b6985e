import NameAdvisor.Settings.Basic
import NameAdvisor.Text.Numeral

/-!
# Settings from the environment

Variables whose value is blank count as unset, and so do those whose value cannot be used.

## Main definitions

* `Environment`: a look-up of variables.
* `Settings.withEnvironment`: settings with the variables put over them.
-/

namespace NameAdvisor

/-- A look-up of environment variables. -/
abbrev Environment : Type := String → Option String

/-- The value of a variable that is set to something. -/
def Environment.read (env : Environment) (name : String) : Option String :=
  (env name).filter fun v => !(Text.trim v).isEmpty

/-- The settings with `key` where there is none yet. -/
def HostedSettings.fillKey (h : HostedSettings) (key : String) : HostedSettings :=
  if h.hasKey then h else { h with apiKey := key }

namespace Settings

/-- The variables that hold keys, with the backends they are for. -/
def keyVariables : List (ProviderKind × String) :=
  [(.openai, "OPENAI_API_KEY"), (.anthropic, "ANTHROPIC_API_KEY"), (.gemini, "GEMINI_API_KEY")]

def withKey (env : Environment) (s : Settings) (variableOf : ProviderKind × String) : Settings :=
  match env.read variableOf.2 with
  | some key => s.modifyHosted variableOf.1 (·.fillKey key)
  | none => s

def withPolicy (env : Environment) (s : Settings) : Settings :=
  match (env.read "NAMER_PROVIDER").map ProviderPolicy.read with
  | some (.ok policy) => { s with provider := policy }
  | _ => s

/-- Takes the address of the local server from its variable. -/
def withEndpoint (env : Environment) (s : Settings) : Settings :=
  match env.read "NAMER_OLLAMA_ENDPOINT" with
  | some endpoint => { s with ollama := { s.ollama with endpoint } }
  | none => s

/-- Takes the model of the local server from its variable. -/
def withModel (env : Environment) (s : Settings) : Settings :=
  match env.read "NAMER_OLLAMA_MODEL" with
  | some model => { s with ollama := { s.ollama with model } }
  | none => s

/-- The settings with one limit for every question that goes over the network. -/
def setHttpTimeout (s : Settings) (timeoutMs : Nat) : Settings :=
  { s with
    openai := { s.openai with timeoutMs }
    anthropic := { s.anthropic with timeoutMs }
    gemini := { s.gemini with timeoutMs }
    ollama := { s.ollama with timeoutMs } }

/-- Takes the limit for questions over the network from its variable. -/
def withHttpTimeout (env : Environment) (s : Settings) : Settings :=
  match (env.read "NAMER_HTTP_TIMEOUT_MS").bind (Numeral.readInRange · minTimeoutMs maxTimeoutMs) with
  | some ms => s.setHttpTimeout ms
  | none => s

/-- The settings with the variables of `env` put over them.  Keys only fill gaps; the other variables win. -/
def withEnvironment (s : Settings) (env : Environment) : Settings :=
  let s := keyVariables.foldl (withKey env) s
  withHttpTimeout env (withModel env (withEndpoint env (withPolicy env s)))

def variableNames : List String :=
  keyVariables.map (·.2) ++
    ["NAMER_PROVIDER", "NAMER_OLLAMA_ENDPOINT", "NAMER_OLLAMA_MODEL", "NAMER_HTTP_TIMEOUT_MS"]

end Settings

end NameAdvisor
