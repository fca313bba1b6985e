import NameAdvisor.Provider.Source
import NameAdvisor.Provider.ApiKey
import NameAdvisor.Settings.Basic
import NameAdvisor.Network.Http
import NameAdvisor.Json.Printer
import NameAdvisor.Json.DraftDecode

/-!
# Backends reached over the network

The hosted backends differ in what their requests look like and in where their replies have the answer.  These
differences are one value of `HostedApi` each; everything else is shared.

## Main definitions

* `HostedApi`: the interface of a backend, with the values `HostedApi.openai`, `HostedApi.anthropic` and
  `HostedApi.gemini`.
* `Hosted`: a hosted backend as it is configured.
* `exchange`: sending a question and finding the answer in the reply.
-/

namespace NameAdvisor

/-- Sends a question and reads the reply: `read` gives the answer in a reply if it has one, and `missing` says what a
reply without one lacks. -/
def exchange (client : HttpClient) (request : HttpRequest) (read : Json.Draft.Reader (Option String))
    (missing : String) : Except ProviderError String × HttpClient :=
  let (delivery, client) := client.send request
  let outcome := match delivery with
    | .failed => .error (.http false)
    | .timedOut => .error (.http true)
    | .answered status body =>
      if !HttpClient.isSuccess status then .error (.ofReply status (Utf8.showBytes body))
      else
        match Json.Draft.readBytes read body with
        | .error (.notJson fault) => .error (.notJson fault)
        | .error (.wrongShape mismatch) => .error (.wrongShape mismatch)
        | .ok none => .error (.malformed missing)
        | .ok (some answer) => .ok answer
  (outcome, client)

/-- The most tokens of an answer. -/
def answerTokens : Nat := 50

/-- How freely a backend chooses its words. -/
def temperature : Json :=
  .number (.double ⟨0x3FE6666666666666⟩)

/-- The interface of a hosted backend. -/
structure HostedApi where
  kind : ProviderKind
  /-- Where the backend is unless an address is configured. -/
  defaultBase : String
  /-- The model used unless one is configured. -/
  defaultModel : String
  /-- The path of questions to a model. -/
  path : String → String
  /-- The header that carries the key, and its value for a key. -/
  keyHeader : String × (String → String)
  /-- Further headers. -/
  headers : List (String × String)
  /-- The body of a question for a model and a prompt. -/
  body : String → String → Json
  /-- The answer in a reply. -/
  answer : Json.Draft.Reader (Option String)
  /-- What a reply without an answer lacks. -/
  missing : String

namespace HostedApi

open Json.Draft (Reader Field Record)

/-- Reads a record with a single field that may be absent. -/
def single {α : Type} (title name : String) (read : Reader α) (default : α) : Reader α := fun d => do
  let r ← Record.ofDraft title [Field.of name read] d
  r.field name read default

/-! ## Chat completions -/

def messageContent : Reader (Option String) :=
  single "struct ChoiceMessage" "content" (.optional .text) none

def choiceContent : Reader (Option String) := fun d => do
  let r ← Record.ofDraft "struct Choice" [.of "message" messageContent] d
  r.required "message" messageContent

def choices : Reader (List (Option String)) :=
  single "struct ChatResponse" "choices" (.list choiceContent) []

def messageJson (role content : String) : Json :=
  .object [("role", .string role), ("content", .string content)]

def systemPrompt : String := "You are an expert in naming conventions for JavaScript and TypeScript code."

/-- Chat completions; the answer is the content of the first choice. -/
def openai : HostedApi where
  kind := .openai
  defaultBase := "https://api.openai.com"
  defaultModel := "gpt-4o-mini"
  path _ := "/v1/chat/completions"
  keyHeader := ("authorization", fun key => "Bearer " ++ key)
  headers := []
  body model prompt := .object [
    ("model", .string model),
    ("messages", .array [messageJson "system" systemPrompt, messageJson "user" prompt]),
    ("max_tokens", .nat answerTokens),
    ("temperature", temperature)]
  answer d := (choices d).map fun contents => contents.head?.join
  missing := "no choices[0].message.content"

/-! ## Messages -/

/-- A block of a reply: its type and its text. -/
def block : Reader (String × Option String) := fun d => do
  let r ← Record.ofDraft "struct ContentBlock" [.of "type" .text, .of "text" (.optional .text)] d
  let type ← r.field "type" .text ""
  let text ← r.field "text" (.optional .text) none
  return (type, text)

def blocks : Reader (List (String × Option String)) :=
  single "struct MessagesResponse" "content" (.list block) []

/-- Messages; the answer is the text of the first block of type `text`. -/
def anthropic : HostedApi where
  kind := .anthropic
  defaultBase := "https://api.anthropic.com"
  defaultModel := "claude-3-5-haiku-latest"
  path _ := "/v1/messages"
  keyHeader := ("x-api-key", id)
  headers := [("anthropic-version", "2023-06-01")]
  body model prompt := .object [
    ("model", .string model),
    ("max_tokens", .nat answerTokens),
    ("messages", .array [messageJson "user" prompt])]
  answer d := (blocks d).map fun bs => (bs.find? (·.1 = "text")).bind (·.2)
  missing := "no text content block"

/-! ## Content generation -/

def partText : Reader (Option String) :=
  single "struct CandidatePart" "text" (.optional .text) none

def parts : Reader (List (Option String)) :=
  single "struct CandidateContent" "parts" (.list partText) []

def candidate : Reader (Option (List (Option String))) :=
  single "struct Candidate" "content" (.optional parts) none

def candidates : Reader (List (Option (List (Option String)))) :=
  single "struct GenerateResponse" "candidates" (.list candidate) []

/-- Content generation; the answer is the first text among the parts of the first candidate. -/
def gemini : HostedApi where
  kind := .gemini
  defaultBase := "https://generativelanguage.googleapis.com"
  defaultModel := "gemini-1.5-flash"
  path model := "/v1beta/models/" ++ model ++ ":generateContent"
  keyHeader := ("x-goog-api-key", id)
  headers := []
  body _ prompt := .object [
    ("contents", .array [.object [("parts", .array [.object [("text", .string prompt)]])]]),
    ("generationConfig", .object [("maxOutputTokens", .nat answerTokens), ("temperature", temperature)])]
  answer d := (candidates d).map fun cs => (cs.head?.join).bind fun ps => ps.findSome? id
  missing := "no candidates[0].content.parts text"

end HostedApi

/-- `s` without the blanks around it, or `default` if nothing is left. -/
def orDefault (s default : String) : String :=
  if (Text.trim s).isEmpty then default else Text.trim s

def withoutSlashes (s : String) : String :=
  String.ofList (s.toList.reverse.dropWhile (· = '/')).reverse

/-- A hosted backend as it is configured. -/
structure Hosted where
  api : HostedApi
  /-- The key, if there is one. -/
  key : Option ApiKey
  model : String
  baseUrl : String
  limitMs : Nat
  client : HttpClient

namespace Hosted

/-- The backend with the interface `api` that `settings` configure. -/
def ofSettings (api : HostedApi) (settings : HostedSettings) (network : Network) : Hosted where
  api := api
  key := ApiKey.ofSetting? settings.apiKey
  model := orDefault settings.model api.defaultModel
  baseUrl := withoutSlashes (orDefault settings.baseUrl api.defaultBase)
  limitMs := settings.timeoutMs
  client := { network }

def address (h : Hosted) : String :=
  h.baseUrl ++ h.api.path h.model

/-- The request that puts `prompt` to the backend, if it can be sent at all. -/
def request? (h : Hosted) (key : ApiKey) (prompt : String) : Option HttpRequest :=
  if !HttpClient.isHeaderText key.secret then none
  else
    (Url.parse? h.address).map fun url =>
      { method := .post
        url
        headers := url.authorization ++ (h.api.keyHeader.1, h.api.keyHeader.2 key.secret) :: h.api.headers ++
          [("content-type", "application/json")]
        body := (h.api.body h.model prompt).compact
        limitMs := h.limitMs }

/-- The backend is available when it has a key; nothing is sent to find out. -/
def isAvailable (h : Hosted) : Bool :=
  h.key.isSome

def complete (h : Hosted) (prompt : String) : Except ProviderError String × Hosted :=
  match h.key with
  | none => (.error (.missingKey h.api.kind), h)
  | some key =>
    match h.request? key prompt with
    | none => (.error (.http false), h)
    | some request =>
      let (outcome, client) := exchange h.client request h.api.answer h.api.missing
      (outcome, { h with client })

instance : NameSource Hosted where
  kind h := h.api.kind
  probe h := (h.isAvailable, h)
  question _ := PromptContext.chatQuestion
  complete := complete

end Hosted

end NameAdvisor
