import NameAdvisor.Settings.Basic
import NameAdvisor.Json.Printer

/-!
# Settings as JSON

Settings are written with every field, in order.  When they are read, absent fields take the defaults of the
record they stand in: those of a whole settings record give each backend its own model, while those of a
backend's record standing alone do not.

## Main definitions

* `AssistantSettings.toJson`, `HostedSettings.toJson`, `ServerSettings.toJson`, `Settings.toJson`.
* `AssistantSettings.decode`, `HostedSettings.decode`, `ServerSettings.decode`, `Settings.decode`.
-/

namespace NameAdvisor

namespace AssistantSettings

def toJson (a : AssistantSettings) : Json :=
  .object [("program", .string a.program), ("timeoutMs", .nat a.timeoutMs), ("probeTimeoutMs", .nat a.probeTimeoutMs)]

def fields : List Json.Field :=
  [.of "program" .string, .of "timeoutMs" .word, .of "probeTimeoutMs" .word]

def decode : Json.Decoder AssistantSettings := fun j => do
  let r ← Json.Record.ofJson "struct CliAssistantSettings" fields j
  let d : AssistantSettings := {}
  let program ← r.field "program" .string d.program
  let timeoutMs ← r.field "timeoutMs" .word d.timeoutMs
  let probeTimeoutMs ← r.field "probeTimeoutMs" .word d.probeTimeoutMs
  return { program, timeoutMs, probeTimeoutMs }

end AssistantSettings

namespace HostedSettings

def toJson (h : HostedSettings) : Json :=
  .object [("apiKey", .string h.apiKey), ("model", .string h.model), ("baseUrl", .string h.baseUrl),
    ("timeoutMs", .nat h.timeoutMs)]

def fields : List Json.Field :=
  [.of "apiKey" .string, .of "model" .string, .of "baseUrl" .string, .of "timeoutMs" .word]

def decode : Json.Decoder HostedSettings := fun j => do
  let r ← Json.Record.ofJson "struct HostedProviderSettings" fields j
  let d : HostedSettings := {}
  let apiKey ← r.field "apiKey" .string d.apiKey
  let model ← r.field "model" .string d.model
  let baseUrl ← r.field "baseUrl" .string d.baseUrl
  let timeoutMs ← r.field "timeoutMs" .word d.timeoutMs
  return { apiKey, model, baseUrl, timeoutMs }

end HostedSettings

namespace ServerSettings

def toJson (s : ServerSettings) : Json :=
  .object [("endpoint", .string s.endpoint), ("model", .string s.model), ("timeoutMs", .nat s.timeoutMs),
    ("probeTimeoutMs", .nat s.probeTimeoutMs)]

def fields : List Json.Field :=
  [.of "endpoint" .string, .of "model" .string, .of "timeoutMs" .word, .of "probeTimeoutMs" .word]

def decode : Json.Decoder ServerSettings := fun j => do
  let r ← Json.Record.ofJson "struct LocalServerSettings" fields j
  let d : ServerSettings := {}
  let endpoint ← r.field "endpoint" .string d.endpoint
  let model ← r.field "model" .string d.model
  let timeoutMs ← r.field "timeoutMs" .word d.timeoutMs
  let probeTimeoutMs ← r.field "probeTimeoutMs" .word d.probeTimeoutMs
  return { endpoint, model, timeoutMs, probeTimeoutMs }

end ServerSettings

namespace Settings

def toJson (s : Settings) : Json :=
  .object [("provider", s.provider.toJson), ("copilot", s.copilot.toJson), ("openai", s.openai.toJson),
    ("anthropic", s.anthropic.toJson), ("gemini", s.gemini.toJson), ("ollama", s.ollama.toJson)]

def fields : List Json.Field :=
  [.of "provider" ProviderPolicy.decode, .of "copilot" AssistantSettings.decode, .of "openai" HostedSettings.decode,
    .of "anthropic" HostedSettings.decode, .of "gemini" HostedSettings.decode, .of "ollama" ServerSettings.decode]

def decode : Json.Decoder Settings := fun j => do
  let r ← Json.Record.ofJson "struct AiSettings" fields j
  let d : Settings := {}
  let provider ← r.field "provider" ProviderPolicy.decode d.provider
  let copilot ← r.field "copilot" AssistantSettings.decode d.copilot
  let openai ← r.field "openai" HostedSettings.decode d.openai
  let anthropic ← r.field "anthropic" HostedSettings.decode d.anthropic
  let gemini ← r.field "gemini" HostedSettings.decode d.gemini
  let ollama ← r.field "ollama" ServerSettings.decode d.ollama
  return { provider, copilot, openai, anthropic, gemini, ollama }

/-- The text of a settings file. -/
def fileText (s : Settings) : String :=
  s.toJson.pretty ++ "\n"

end Settings

end NameAdvisor
