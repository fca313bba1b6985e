import NameAdvisor.Provider.Hosted
import NameAdvisor.Text.Search

/-!
# A server on the local machine

## Main definitions

* `LocalServer`: the server as it is configured.
* `LocalServer.tagsUrl`: the address that is asked whether the server is there.
-/

namespace NameAdvisor

/-- A local server as it is configured. -/
structure LocalServer where
  endpoint : String
  model : String
  limitMs : Nat
  probeLimitMs : Nat
  client : HttpClient

namespace LocalServer

/-- The address of questions unless one is configured. -/
def defaultEndpoint : String := "http://localhost:11434/api/generate"

/-- The model used unless one is configured. -/
def defaultModel : String := "llama3"

def ofSettings (settings : ServerSettings) (network : Network) : LocalServer where
  endpoint := orDefault settings.endpoint defaultEndpoint
  model := orDefault settings.model defaultModel
  limitMs := settings.timeoutMs
  probeLimitMs := settings.probeTimeoutMs
  client := { network }

/-- The address that lists the models of the server: the first `/generate` of the endpoint becomes `/tags`, and an
endpoint without one is taken for the top of the server. -/
def tagsUrl (endpoint : String) : String :=
  if Text.contains endpoint "/generate" then Text.replaceFirst endpoint "/generate" "/tags"
  else withoutSlashes endpoint ++ "/api/tags"

/-- The request that finds out whether the server is there. -/
def probeRequest? (s : LocalServer) : Option HttpRequest :=
  (Url.parse? (tagsUrl s.endpoint)).map fun url =>
    { method := .get, url, headers := url.authorization, body := "", limitMs := s.probeLimitMs }

/-- The server is there when it answers with success. -/
def probe (s : LocalServer) : Bool × LocalServer :=
  match s.probeRequest? with
  | none => (false, s)
  | some request =>
    let (delivery, client) := s.client.send request
    (match delivery with
      | .answered status _ => HttpClient.isSuccess status
      | _ => false, { s with client })

def questionJson (model prompt : String) : Json :=
  .object [("model", .string model), ("prompt", .string prompt), ("stream", .bool false)]

/-- The request that puts `prompt` to the server, if it can be sent at all. -/
def request? (s : LocalServer) (prompt : String) : Option HttpRequest :=
  (Url.parse? s.endpoint).map fun url =>
    { method := .post
      url
      headers := url.authorization ++ [("content-type", "application/json")]
      body := (questionJson s.model prompt).compact
      limitMs := s.limitMs }

def answer : Json.Draft.Reader (Option String) :=
  HostedApi.single "struct GenerateResponse" "response" (.optional .text) none

def complete (s : LocalServer) (prompt : String) : Except ProviderError String × LocalServer :=
  match s.request? prompt with
  | none => (.error (.http false), s)
  | some request =>
    let (outcome, client) := exchange s.client request answer "no response field"
    (outcome, { s with client })

instance : NameSource LocalServer where
  kind _ := .ollama
  probe := probe
  question _ := PromptContext.chatQuestion
  complete := complete

end LocalServer

end NameAdvisor
