import Mathlib.Data.List.Infix
import NameAdvisor.Proofs.Json.RoundTrip
import NameAdvisor.Proofs.Network.Path
import NameAdvisor.Proofs.Provider.Keys
import NameAdvisor.Proofs.Provider.Replies

/-!
# What backends are asked

The prompt and the model are texts among the constants of a request.  Whatever they hold, the body of the request is
read as the object of the backend, with the two in their places and everything else as it always is.  One backend has
its model in the path of the address instead, where not every text stays what it is.

## Main definitions

* `Json.leaves`: the values at the ends of a value, with the ways to them.
* `ProviderKind.questionJson`: the request object of a backend.
* `Settings.chosenModel`, `Settings.chosenAddress`: what is configured, or what the backend has instead.
* `Settings.CanAsk`: settings with which a backend sends requests.
* `Url.FitsPath`: models that are received from a path as they were.
-/

namespace NameAdvisor

open Json

/-! ## The ends of a value -/

namespace Json

/-- A step down into a value. -/
inductive Step where
  | member (name : String)
  | item (index : Nat)
  deriving DecidableEq, Repr

mutual

/-- The values that hold no others, each with the way to it. -/
def leaves : Json → List (List Step × Json)
  | .array items => itemLeaves 0 items
  | .object members => memberLeaves members
  | j => [([], j)]

def itemLeaves (index : Nat) : List Json → List (List Step × Json)
  | [] => []
  | j :: rest => (leaves j).map (fun l => (.item index :: l.1, l.2)) ++ itemLeaves (index + 1) rest

def memberLeaves : List (String × Json) → List (List Step × Json)
  | [] => []
  | (name, j) :: rest => (leaves j).map (fun l => (.member name :: l.1, l.2)) ++ memberLeaves rest

end

theorem text_temperature : (Number.double ⟨0x3FE6666666666666⟩).text = "0.7" := by
  decide +kernel

/-- The number of tenths is read as the one that it was, although it is not whole. -/
theorem readsBack_temperature (l : Layout) (depth : Nat) : ReadsBack l depth temperature := by
  have htext : ∀ level, l.chars level temperature = ['0', '.', '7'] := fun level => by
    rw [temperature, Layout.chars, text_temperature]
    rfl
  apply readsBack_of_succ (j := temperature) (fun level => by simp [htext])
  intro fuel level rest _ hr
  have hread := readNumber_tenths (d := '0') (f := '7') rfl rfl hr
  have hdouble : doubleOf true (digitValue '0' * 10 + digitValue '7') (-1) = .ok (.double ⟨0x3FE6666666666666⟩) := rfl
  rw [hdouble] at hread
  rw [htext]
  simp [readValue, skipSpace, isSpace, hread, temperature, Except.map]

end Json

/-! ## Request objects -/

namespace ProviderKind

/-- The request object of a backend for a model and a prompt. -/
def questionJson (model prompt : String) : ProviderKind → Json
  | .openai => .object [("model", .string model),
      ("messages", .array [
        .object [("role", .string "system"), ("content", .string
          "You are an expert in naming conventions for JavaScript and TypeScript code.")],
        .object [("role", .string "user"), ("content", .string prompt)]]),
      ("max_tokens", .nat 50), ("temperature", temperature)]
  | .anthropic => .object [("model", .string model), ("max_tokens", .nat 50),
      ("messages", .array [.object [("role", .string "user"), ("content", .string prompt)]])]
  | .gemini => .object [("contents", .array [.object [("parts", .array [.object [("text", .string prompt)]])]]),
      ("generationConfig", .object [("maxOutputTokens", .nat 50), ("temperature", temperature)])]
  | .ollama => .object [("model", .string model), ("prompt", .string prompt), ("stream", .bool false)]
  | .copilot => .null

/-- The way to the prompt. -/
def promptWay : ProviderKind → List Step
  | .openai => [.member "messages", .item 1, .member "content"]
  | .anthropic => [.member "messages", .item 0, .member "content"]
  | .gemini => [.member "contents", .item 0, .member "parts", .item 0, .member "text"]
  | .ollama => [.member "prompt"]
  | .copilot => []

/-- What the request object holds besides the prompt and the model. -/
def constants : ProviderKind → List (List Step × Json)
  | .openai => [([.member "messages", .item 0, .member "role"], .string "system"),
      ([.member "messages", .item 0, .member "content"],
        .string "You are an expert in naming conventions for JavaScript and TypeScript code."),
      ([.member "messages", .item 1, .member "role"], .string "user"),
      ([.member "max_tokens"], .nat 50), ([.member "temperature"], temperature)]
  | .anthropic => [([.member "max_tokens"], .nat 50),
      ([.member "messages", .item 0, .member "role"], .string "user")]
  | .gemini => [([.member "generationConfig", .member "maxOutputTokens"], .nat 50),
      ([.member "generationConfig", .member "temperature"], temperature)]
  | .ollama => [([.member "stream"], .bool false)]
  | .copilot => []

/-- The request object is read back from its text, whatever the model and the prompt. -/
theorem parse_questionJson (model prompt : String) (kind : ProviderKind) :
    parse (kind.questionJson model prompt).compact = .ok (kind.questionJson model prompt) := by
  have hs : ∀ (s : String) (depth : Nat), ReadsBack .compact depth (.string s) := fun s _ =>
    (Readable.string s).readsBack _
  have hn : ∀ depth, ReadsBack .compact depth (.nat 50) := fun _ =>
    (readable_number_iff (n := .natural 50)).mpr (by decide : (50 : Nat) < wordLimit) |>.readsBack _
  have ht := readsBack_temperature .compact
  apply ReadsBack.parse_compact
  rw [depthLimit_eq]
  cases kind with
  | copilot => exact Readable.null.readsBack _
  | openai =>
    refine readsBack_object ?_
    simp only [List.forall_mem_cons]
    exact ⟨hs _ _, Readable.readsBack _ (by simp), hn _, ht _, List.forall_mem_nil _⟩
  | anthropic =>
    refine readsBack_object ?_
    simp only [List.forall_mem_cons]
    exact ⟨hs _ _, hn _, Readable.readsBack _ (by simp), List.forall_mem_nil _⟩
  | gemini =>
    refine readsBack_object ?_
    simp only [List.forall_mem_cons]
    refine ⟨Readable.readsBack _ (by simp), readsBack_object ?_, List.forall_mem_nil _⟩
    simp only [List.forall_mem_cons]
    exact ⟨hn _, ht _, List.forall_mem_nil _⟩
  | ollama => exact Readable.readsBack _ (readable_object_iff.mpr (by simp))

/-- The value is the request object, the prompt stands in its place, the model in its own unless it goes elsewhere, and
the rest is what the backend always sends. -/
structure IsQuestion (kind : ProviderKind) (model prompt : String) (j : Json) : Prop where
  eq : j = kind.questionJson model prompt
  prompt : j.leaves.lookup kind.promptWay = some (.string prompt)
  model : kind ≠ .gemini → j.leaves.lookup [.member "model"] = some (.string model)
  others : j.leaves.filter (fun l => l.1 ≠ kind.promptWay ∧ (kind = .gemini ∨ l.1 ≠ [.member "model"])) = kind.constants

/-- Nothing in the prompt and the model changes another part of the request object. -/
theorem isQuestion_questionJson (model prompt : String) {kind : ProviderKind} (hkind : kind ≠ .copilot) :
    kind.IsQuestion model prompt (kind.questionJson model prompt) := by
  cases kind with
  | copilot => exact absurd rfl hkind
  | openai => exact ⟨rfl, rfl, fun _ => rfl, rfl⟩
  | anthropic => exact ⟨rfl, rfl, fun _ => rfl, rfl⟩
  | gemini => exact ⟨rfl, rfl, fun h => absurd rfl h, rfl⟩
  | ollama => exact ⟨rfl, rfl, fun _ => rfl, rfl⟩

/-- The model that a backend is asked for unless one is configured. -/
def defaultModel : ProviderKind → String
  | .openai => "gpt-4o-mini"
  | .anthropic => "claude-3-5-haiku-latest"
  | .gemini => "gemini-1.5-flash"
  | .ollama => "llama3"
  | .copilot => ""

/-- Where a backend is unless an address is configured. -/
def defaultAddress : ProviderKind → String
  | .openai => "https://api.openai.com"
  | .anthropic => "https://api.anthropic.com"
  | .gemini => "https://generativelanguage.googleapis.com"
  | .ollama => "http://localhost:11434/api/generate"
  | .copilot => ""

end ProviderKind

/-! ## Configured models and addresses -/

/-- What is configured, without the blanks around it, or the default where that is blank. -/
def chosen (configured default : String) : String :=
  if Text.isBlankText configured then default else Text.trim configured

theorem orDefault_eq (configured default : String) : orDefault configured default = chosen configured default := by
  rw [orDefault, chosen, Text.isEmpty_trim]

namespace Settings

variable (s : Settings) (kind : ProviderKind)

def chosenModel : String :=
  chosen (if kind = .ollama then s.ollama.model else (s.hosted? kind).elim "" (·.model)) kind.defaultModel

def chosenAddress : String :=
  chosen (if kind = .ollama then s.ollama.endpoint else (s.hosted? kind).elim "" (·.baseUrl)) kind.defaultAddress

/-- A backend with these settings sends requests: a hosted one has a key that can stand in a header and an address that
a path may be put after, and a local server has an address. -/
inductive CanAsk : ProviderKind → Prop
  | hosted {kind : ProviderKind} {h : HostedSettings} (hs : s.hosted? kind = some h)
      (hk : Text.isBlankText h.apiKey = false) (hh : HttpClient.isHeaderText (Text.trim h.apiKey) = true)
      (hb : Url.IsBase (s.chosenAddress kind)) : CanAsk kind
  | server (hp : (Url.parse? (s.chosenAddress .ollama)).isSome = true) : CanAsk .ollama

theorem chosenModel_ollama : s.chosenModel .ollama = chosen s.ollama.model ProviderKind.ollama.defaultModel := by
  rw [chosenModel, if_pos rfl]

theorem chosenAddress_ollama :
    s.chosenAddress .ollama = chosen s.ollama.endpoint ProviderKind.ollama.defaultAddress := by
  rw [chosenAddress, if_pos rfl]

variable {s} {kind}

theorem hosted?_or_ollama (s : Settings) (hkind : kind ≠ .copilot) : (∃ h, s.hosted? kind = some h) ∨ kind = .ollama := by
  cases kind with
  | copilot => exact absurd rfl hkind
  | openai | anthropic | gemini => exact .inl ⟨_, rfl⟩
  | ollama => exact .inr rfl

theorem chosenModel_of_hosted {h : HostedSettings} (hs : s.hosted? kind = some h) :
    s.chosenModel kind = chosen h.model kind.defaultModel := by
  have hne : kind ≠ .ollama := fun he => by simp [he, hosted?] at hs
  rw [chosenModel, if_neg hne, hs]
  rfl

theorem chosenAddress_of_hosted {h : HostedSettings} (hs : s.hosted? kind = some h) :
    s.chosenAddress kind = chosen h.baseUrl kind.defaultAddress := by
  have hne : kind ≠ .ollama := fun he => by simp [he, hosted?] at hs
  rw [chosenAddress, if_neg hne, hs]
  rfl

end Settings

/-! ## Requests as they are sent -/

/-- The path of questions to a model, where the model is in the path. -/
def pathToModel (model : String) : String :=
  "/v1beta/models/" ++ model ++ ":generateContent"

/-- The interface is that of the backend. -/
structure HostedApi.Serves (api : HostedApi) (kind : ProviderKind) : Prop extends api.Proper where
  model : api.defaultModel = kind.defaultModel
  address : api.defaultBase = kind.defaultAddress
  body : ∀ model prompt, api.body model prompt = kind.questionJson model prompt
  modelPath : kind = .gemini → api.path = pathToModel

theorem HostedApi.exists_serves {settings : Settings} {kind : ProviderKind} {h : HostedSettings}
    (hs : settings.hosted? kind = some h) (around : Surroundings) :
    ∃ api : HostedApi, api.Serves kind ∧
      Backend.ofSettings settings around kind = .hosted (.ofSettings api h around.network) := by
  cases kind with
  | openai => cases hs; exact ⟨openai, ⟨proper_openai, rfl, rfl, fun _ _ => rfl, nofun⟩, rfl⟩
  | anthropic => cases hs; exact ⟨anthropic, ⟨proper_anthropic, rfl, rfl, fun _ _ => rfl, nofun⟩, rfl⟩
  | gemini => cases hs; exact ⟨gemini, ⟨proper_gemini, rfl, rfl, fun _ _ => rfl, fun _ => rfl⟩, rfl⟩
  | copilot => cases hs
  | ollama => cases hs

theorem Hosted.of_sent {h : Hosted} {prompt : String} {request : HttpRequest}
    (hsent : (h.complete prompt).2.client.sent = h.client.sent ++ [request]) :
    request.body = (h.api.body h.model prompt).compact ∧ Url.parse? h.address = some request.url := by
  obtain ⟨key, -, hrequest⟩ := request?_of_sent hsent
  unfold request? at hrequest
  split at hrequest
  · cases hrequest
  · obtain ⟨url, hurl, rfl⟩ := Option.map_eq_some_iff.mp hrequest
    exact ⟨rfl, hurl⟩

theorem LocalServer.of_sent {s : LocalServer} {prompt : String} {request : HttpRequest}
    (hsent : (s.complete prompt).2.client.sent = s.client.sent ++ [request]) :
    request.body = (questionJson s.model prompt).compact := by
  obtain ⟨url, -, rfl⟩ := Option.map_eq_some_iff.mp (request?_of_sent hsent)
  rfl

/-- A question sends a request or none. -/
theorem Hosted.exists_requests (h : Hosted) (prompt : String) :
    ∃ requests, (h.complete prompt).2.client.sent = h.client.sent ++ requests ∧ requests.length ≤ 1 := by
  unfold complete
  split
  · exact ⟨[], by simp⟩
  · split
    · exact ⟨[], by simp⟩
    · next request _ => exact ⟨[request], rfl, le_rfl⟩

theorem LocalServer.exists_requests (s : LocalServer) (prompt : String) :
    ∃ requests, (s.complete prompt).2.client.sent = s.client.sent ++ requests ∧ requests.length ≤ 1 := by
  unfold complete
  split
  · exact ⟨[], by simp⟩
  · next request _ => exact ⟨[request], rfl, le_rfl⟩

theorem Hosted.exists_sent {h : Hosted} (hapi : h.api.Proper) {base : String} (hbase : Url.IsBase base)
    (ha : h.baseUrl = withoutSlashes base) {key : ApiKey} (hkey : h.key = some key)
    (hk : HttpClient.isHeaderText key.secret = true) (prompt : String) :
    ∃ request, (h.complete prompt).2.client.sent = h.client.sent ++ [request] := by
  obtain ⟨request, -, hrequest, -⟩ := exists_request hapi hbase ha hk prompt
  exact ⟨request, sent_complete hkey hrequest⟩

theorem LocalServer.exists_sent {s : LocalServer} (h : (Url.parse? s.endpoint).isSome = true) (prompt : String) :
    ∃ request, (s.complete prompt).2.client.sent = s.client.sent ++ [request] := by
  obtain ⟨url, hurl⟩ := Option.isSome_iff_exists.mp h
  simp [complete, request?, hurl, exchange, HttpClient.send]

/-! ## Models in a path -/

namespace Url

/-- A model whose text is taken for what it is in the path of an address: none of its characters starts something else
or stands for another one, and none of its segments is a step up. -/
structure FitsPath (model : String) : Prop where
  chars : ∀ c ∈ model.toList, StaysInPath c ∧ c ≠ '%'
  names : ∀ name ∈ segments (model ++ ":generateContent").toList, ¬ IsPoint name

/-- A model without slashes is one segment with the verb after it, and that is no step up. -/
theorem FitsPath.of_notSlash {model : String} (h : ∀ c ∈ model.toList, StaysInPath c ∧ c ≠ '%' ∧ c ≠ '/') :
    FitsPath model where
  chars c hc := ⟨(h c hc).1, (h c hc).2.1⟩
  names := by
    have hverb : ∀ c ∈ ":generateContent".toList, isSlash c = false := List.forall_iff_forall_mem.mp (by decide)
    have hmodel : ∀ c ∈ model.toList, isSlash c = false := fun c hc => by
      obtain ⟨hstays, -, hslash⟩ := h c hc
      simp only [StaysInPath, List.mem_cons, not_or] at hstays
      simp [isSlash, hslash, hstays]
    rw [String.toList_append, segments_of_notSlash (List.forall_mem_append.mpr ⟨hmodel, hverb⟩)]
    refine List.forall_mem_singleton.mpr (not_isPoint_of_mem (c := ':') (by decide) ?_)
    exact List.mem_append_right _ (by decide)

/-- The characters of the path of questions to a model after the slash at its start. -/
def modelChars (model : String) : List Char :=
  "v1beta/models/".toList ++ (model ++ ":generateContent").toList

theorem toList_pathToModel (model : String) : (pathToModel model).toList = '/' :: modelChars model := by
  have hassoc : pathToModel model = "/v1beta/models/" ++ (model ++ ":generateContent") := String.append_assoc
  rw [hassoc, String.toList_append]
  rfl

theorem getLast?_modelChars (model : String) : (modelChars model).getLast? = some 't' := by
  have hverb : ":generateContent".toList ≠ [] := by decide
  unfold modelChars
  rw [String.toList_append, ← List.append_assoc, List.getLast?_append_of_ne_nil _ hverb]
  rfl

/-- The segments of a path to a model are two fixed ones and those of the model. -/
theorem segments_modelChars (model : String) : segments (modelChars model) =
    "v1beta".toList :: "models".toList :: segments (model ++ ":generateContent").toList := by
  have hsplit : modelChars model =
      "v1beta".toList ++ '/' :: ("models".toList ++ '/' :: (model ++ ":generateContent").toList) := rfl
  have hfirst : ∀ c ∈ "v1beta".toList, isSlash c = false := List.forall_iff_forall_mem.mp (by decide)
  have hsecond : ∀ c ∈ "models".toList, isSlash c = false := List.forall_iff_forall_mem.mp (by decide)
  rw [hsplit, segments_append_slash, segments_append_slash, segments_of_notSlash hfirst, segments_of_notSlash hsecond]
  rfl

theorem encodeWith_modelChars (model : String) : encodeWith encodedInPath (modelChars model) =
    "v1beta/models/".toList ++ encodeWith encodedInPath (model ++ ":generateContent").toList := by
  have hfixed : encodeWith encodedInPath "v1beta/models/".toList = "v1beta/models/".toList := by decide
  unfold modelChars
  rw [encodeWith_append, hfixed]

section FitsPath

variable {model : String} (hm : FitsPath model)

include hm

theorem FitsPath.chars_verb : ∀ c ∈ (model ++ ":generateContent").toList, StaysInPath c ∧ c ≠ '%' := by
  have hverb : ∀ c ∈ ":generateContent".toList, StaysInPath c ∧ c ≠ '%' := List.forall_iff_forall_mem.mp (by decide)
  rw [String.toList_append]
  exact List.forall_mem_append.mpr ⟨hm.chars, hverb⟩

theorem FitsPath.staysInPath : ∀ c ∈ modelChars model, StaysInPath c := by
  have hfixed : ∀ c ∈ "v1beta/models/".toList, StaysInPath c := List.forall_iff_forall_mem.mp (by decide)
  exact List.forall_mem_append.mpr ⟨hfixed, fun c hc => (hm.chars_verb c hc).1⟩

theorem FitsPath.not_isPoint : ∀ name ∈ segments (modelChars model), ¬ IsPoint name := by
  rw [segments_modelChars]
  simp only [List.forall_mem_cons]
  exact ⟨by decide, by decide, hm.names⟩

/-- The path of a question is sent after that of the base, and whoever receives it gets the model from it. -/
theorem FitsPath.exists_path {base : String} (hb : IsBase base) (hplain : ∀ c ∈ base.toList, c ≠ '#' ∧ c ≠ '?')
    {url : Url} (hurl : parse? (withoutSlashes base ++ pathToModel model) = some url) :
    ∃ front rest, url.path = String.ofList (front ++ "/v1beta/models/".toList ++ rest) ∧
      Utf8.decode ⟨(percentDecode rest).toArray⟩ = some (model ++ ":generateContent") ∧ url.query = none := by
  obtain ⟨slashes, hs, hall⟩ := Hosted.exists_slashes base
  have hbase : ∀ c ∈ (withoutSlashes base).toList, c ≠ '#' ∧ c ≠ '?' := fun c hc =>
    hplain c (hs ▸ List.mem_append_left _ hc)
  have hlast : ∀ c, (modelChars model).getLast? = some c → isControlOrSpace c = false := by
    intro c hc
    rw [getLast?_modelChars] at hc
    obtain rfl := Option.some.inj hc
    rfl
  obtain ⟨read, front, hread, hpath, hquery⟩ := hb.exists_path hs hall hbase hm.staysInPath hlast hm.not_isPoint
  rw [← toList_pathToModel, String.ofList_append, String.ofList_toList, String.ofList_toList, hurl] at hread
  obtain rfl := Option.some.inj hread
  have hsign : '%' ∉ (model ++ ":generateContent").toList := fun h => (hm.chars_verb _ h).2 rfl
  refine ⟨front, _, ?_, decode_percentDecode_encodeWith encodedInPath hsign, hquery⟩
  rw [hpath, encodeWith_modelChars, List.append_assoc]
  rfl

end FitsPath

end Url

/-! ## Questions of backends -/

namespace Backend

@[simp] theorem sent_complete_hosted (h : Hosted) (prompt : String) :
    ((hosted h).complete prompt).2.client?.map (·.sent) = some (h.complete prompt).2.client.sent :=
  rfl

@[simp] theorem sent_complete_server (s : LocalServer) (prompt : String) :
    ((server s).complete prompt).2.client?.map (·.sent) = some (s.complete prompt).2.client.sent :=
  rfl

section Settings

variable {settings : Settings} {kind : ProviderKind} {prompt : String} {request : HttpRequest}

/-- A hosted backend as its settings configure it. -/
theorem exists_hosted_eq {h : HostedSettings} (hs : settings.hosted? kind = some h) (around : Surroundings)
    (client : HttpClient) :
    ∃ asked : Hosted, (ofSettings settings around kind).withClient client = hosted asked ∧ asked.client = client ∧
      asked.api.Serves kind ∧ asked.key = ApiKey.ofSetting? h.apiKey ∧ asked.model = settings.chosenModel kind ∧
      asked.baseUrl = withoutSlashes (settings.chosenAddress kind) := by
  obtain ⟨api, hapi, hb⟩ := HostedApi.exists_serves hs around
  rw [hb, withClient, Hosted.ofSettings, orDefault_eq, orDefault_eq, hapi.model, hapi.address,
    ← Settings.chosenModel_of_hosted hs, ← Settings.chosenAddress_of_hosted hs]
  -- the fields are read off first, since to compare them with what is chosen would be to choose it
  exact ⟨_, rfl, rfl, hapi, by dsimp only, by dsimp only, by dsimp only⟩

/-- The local server as its settings configure it. -/
theorem exists_server_eq (settings : Settings) (around : Surroundings) (client : HttpClient) :
    ∃ asked : LocalServer, (ofSettings settings around .ollama).withClient client = server asked ∧
      asked.client = client ∧ asked.model = settings.chosenModel .ollama ∧
      asked.endpoint = settings.chosenAddress .ollama := by
  have hmodel : LocalServer.defaultModel = ProviderKind.ollama.defaultModel := rfl
  have haddress : LocalServer.defaultEndpoint = ProviderKind.ollama.defaultAddress := rfl
  rw [ofSettings, withClient, LocalServer.ofSettings, orDefault_eq, orDefault_eq, hmodel, haddress,
    ← settings.chosenModel_ollama, ← settings.chosenAddress_ollama]
  exact ⟨_, rfl, rfl, by dsimp only, by dsimp only⟩

/-- Every request has the object of its backend for a body. -/
theorem body_of_sent (hkind : kind ≠ .copilot) {around : Surroundings} {client : HttpClient}
    (hsent : (((ofSettings settings around kind).withClient client).complete prompt).2.client?.map (·.sent) =
      some (client.sent ++ [request])) :
    request.body = (kind.questionJson (settings.chosenModel kind) prompt).compact := by
  obtain ⟨h, hs⟩ | rfl := settings.hosted?_or_ollama hkind
  · obtain ⟨asked, hb, rfl, hapi, -, hmodel, -⟩ := exists_hosted_eq hs around client
    rw [hb, sent_complete_hosted, Option.some.injEq] at hsent
    rw [(Hosted.of_sent hsent).1, hapi.body, hmodel]
  · obtain ⟨asked, hb, rfl, hmodel, -⟩ := exists_server_eq settings around client
    rw [hb, sent_complete_server, Option.some.injEq] at hsent
    rw [LocalServer.of_sent hsent, hmodel]
    rfl

/-- Where the model is in the path, the address of a request ends in it. -/
theorem parse?_of_sent {around : Surroundings} {client : HttpClient}
    (hsent : (((ofSettings settings around .gemini).withClient client).complete prompt).2.client?.map (·.sent) =
      some (client.sent ++ [request])) :
    Url.parse? (withoutSlashes (settings.chosenAddress .gemini) ++ pathToModel (settings.chosenModel .gemini)) =
      some request.url := by
  have hs : settings.hosted? .gemini = some settings.gemini := rfl
  obtain ⟨asked, hb, rfl, hapi, -, hmodel, haddress⟩ := exists_hosted_eq hs around client
  rw [hb, sent_complete_hosted, Option.some.injEq] at hsent
  rw [← (Hosted.of_sent hsent).2, Hosted.address, hapi.modelPath rfl, hmodel, haddress]

/-- With settings that allow it, a question sends a request. -/
theorem exists_sent (hask : settings.CanAsk kind) (around : Surroundings) (client : HttpClient) (prompt : String) :
    ∃ request, (((ofSettings settings around kind).withClient client).complete prompt).2.client?.map (·.sent) =
      some (client.sent ++ [request]) := by
  cases hask with
  | @hosted _ h hs hk hh hbase =>
    obtain ⟨asked, hb, rfl, hapi, hkey, -, haddress⟩ := exists_hosted_eq hs around client
    have hsome : ApiKey.ofSetting? h.apiKey = some ⟨Text.trim h.apiKey⟩ := by simp [ApiKey.ofSetting?_eq, hk]
    simp only [hb, sent_complete_hosted, Option.some.injEq]
    exact Hosted.exists_sent hapi.toProper hbase haddress (hkey.trans hsome) hh prompt
  | server hp =>
    obtain ⟨asked, hb, rfl, -, haddress⟩ := exists_server_eq settings around client
    simp only [hb, sent_complete_server, Option.some.injEq]
    exact LocalServer.exists_sent (haddress ▸ hp) prompt

theorem exists_requests (hkind : kind ≠ .copilot) (settings : Settings) (around : Surroundings) (client : HttpClient)
    (prompt : String) :
    ∃ requests, (((ofSettings settings around kind).withClient client).complete prompt).2.client?.map (·.sent) =
      some (client.sent ++ requests) ∧ requests.length ≤ 1 := by
  obtain ⟨h, hs⟩ | rfl := settings.hosted?_or_ollama hkind
  · obtain ⟨asked, hb, rfl, -⟩ := exists_hosted_eq hs around client
    simpa only [hb, sent_complete_hosted, Option.some.injEq] using asked.exists_requests prompt
  · obtain ⟨asked, hb, rfl, -⟩ := exists_server_eq settings around client
    simpa only [hb, sent_complete_server, Option.some.injEq] using asked.exists_requests prompt

end Settings

/-- A question to a backend that is reached over the network sends one request, if the settings allow any.  Its body is
read as the request object, with the prompt and the model unchanged in their places and everything else as it always is.
Where the model is in the path instead, it is received from there unchanged if it fits one. -/
theorem asks_model_about_prompt (settings : Settings) (around : Surroundings) {kind : ProviderKind}
    (hkind : kind ≠ .copilot) (client : HttpClient) (prompt : String) :
    let b := (ofSettings settings around kind).withClient client
    let model := settings.chosenModel kind
    let base := settings.chosenAddress kind
    ∃ requests, (b.complete prompt).2.client?.map (·.sent) = some (client.sent ++ requests) ∧ requests.length ≤ 1 ∧
      (settings.CanAsk kind → requests ≠ []) ∧
      ∀ request ∈ requests, (∃ j, Json.parse request.body = .ok j ∧ kind.IsQuestion model prompt j) ∧
        (kind = .gemini → Url.IsBase base → (∀ c ∈ base.toList, c ≠ '#' ∧ c ≠ '?') → Url.FitsPath model →
          ∃ front rest, request.url.path = String.ofList (front ++ "/v1beta/models/".toList ++ rest) ∧
            Utf8.decode ⟨(Url.percentDecode rest).toArray⟩ = some (model ++ ":generateContent") ∧
            request.url.query = none) := by
  intro b model base
  obtain ⟨requests, hsent, hlength⟩ := exists_requests hkind settings around client prompt
  refine ⟨requests, hsent, hlength, ?_, ?_⟩
  · rintro hask rfl
    obtain ⟨request, hrequest⟩ := exists_sent hask around client prompt
    rw [hsent] at hrequest
    simp at hrequest
  · intro request hmem
    obtain ⟨only, rfl⟩ : ∃ only, requests = [only] :=
      List.length_eq_one_iff.mp (le_antisymm hlength (List.length_pos_of_mem hmem))
    obtain rfl := List.mem_singleton.mp hmem
    constructor
    · refine ⟨_, ?_, ProviderKind.isQuestion_questionJson model prompt hkind⟩
      rw [body_of_sent hkind hsent, ProviderKind.parse_questionJson]
    · rintro rfl hbase hplain hfits
      exact hfits.exists_path hbase hplain (parse?_of_sent hsent)

/-- Quotes, braces and line breaks in a prompt, and blanks and other letters in a path, are received as they were. -/
theorem asks_model_about_prompt_quoted :
    let settings : Settings := { gemini := { apiKey := " k ", model := " mod\u00e8le 1\n", baseUrl := "http://h:1/x/" } }
    let prompt := "\"\x7d]\x7d,\n\\\"contents\":\x01\u00e8"
    let b := (ofSettings settings {} .gemini).withClient { network := .dead }
    ProviderKind.gemini ≠ .copilot ∧ ∃ request j front rest, (b.complete prompt).2.client?.map (·.sent) = some [request] ∧
      Json.parse request.body = .ok j ∧
      j.leaves.lookup ProviderKind.gemini.promptWay = some (.string prompt) ∧
      request.url.path = String.ofList (front ++ "/v1beta/models/".toList ++ rest) ∧
      Utf8.decode ⟨(Url.percentDecode rest).toArray⟩ = some "mod\u00e8le 1:generateContent" := by
  intro settings prompt b
  have hmodel : settings.chosenModel .gemini = "mod\u00e8le 1" := by decide +kernel
  have haddress : settings.chosenAddress .gemini = "http://h:1/x/" := by decide +kernel
  have hbase : Url.IsBase (settings.chosenAddress .gemini) :=
    haddress ▸ .of_getLast? (c := '/') (by decide +kernel) (by decide +kernel) rfl
  have hask : settings.CanAsk .gemini := .hosted (h := settings.gemini) rfl (by decide +kernel) (by decide +kernel) hbase
  have hfits : Url.FitsPath (settings.chosenModel .gemini) :=
    hmodel ▸ .of_notSlash (List.forall_iff_forall_mem.mp (by decide +kernel))
  have hkind : ProviderKind.gemini ≠ .copilot := by decide
  obtain ⟨requests, hsent, hlength, hsome, hall⟩ :=
    asks_model_about_prompt settings {} hkind { network := .dead } prompt
  obtain ⟨request, rfl⟩ : ∃ request, requests = [request] :=
    List.length_eq_one_iff.mp (le_antisymm hlength (List.length_pos_of_ne_nil (hsome hask)))
  obtain ⟨⟨j, hj, hquestion⟩, hpath⟩ := hall request List.mem_cons_self
  have hplain : ∀ c ∈ (settings.chosenAddress .gemini).toList, c ≠ '#' ∧ c ≠ '?' :=
    haddress ▸ List.forall_iff_forall_mem.mp (by decide +kernel)
  obtain ⟨front, rest, hfront, hrest, -⟩ := hpath rfl hbase hplain hfits
  refine ⟨hkind, request, j, front, rest, hsent, hj, hquestion.prompt, hfront, ?_⟩
  rw [hrest, hmodel]
  rfl

/-- A number sign in the model starts a fragment: a question for it goes to another model, and without its verb. -/
theorem model_cut_at_number_sign :
    let settings : Settings := { gemini := { apiKey := "k", model := "m#1", baseUrl := "http://h:1" } }
    let b := (ofSettings settings {} .gemini).withClient { network := .dead }
    settings.CanAsk .gemini ∧ settings.chosenModel .gemini = "m#1" ∧
      ∃ request, (b.complete "p").2.client?.map (·.sent) = some [request] ∧ request.url.target = "/v1beta/models/m" ∧
        ¬ ∃ front rest, request.url.path = String.ofList (front ++ "/v1beta/models/".toList ++ rest) ∧
          Utf8.decode ⟨(Url.percentDecode rest).toArray⟩ = some "m#1:generateContent" := by
  intro settings b
  have haddress : settings.chosenAddress .gemini = "http://h:1" := by decide +kernel
  have hbase : Url.IsBase (settings.chosenAddress .gemini) :=
    haddress ▸ .of_getLast? (c := '1') (by decide +kernel) (by decide +kernel) rfl
  have hask : settings.CanAsk .gemini := .hosted (h := settings.gemini) rfl (by decide +kernel) (by decide +kernel) hbase
  have hmodel : settings.chosenModel .gemini = "m#1" := by decide +kernel
  obtain ⟨request, hsent⟩ := exists_sent hask {} { network := .dead } "p"
  have hurl := parse?_of_sent hsent
  have hread : Url.parse? (withoutSlashes (settings.chosenAddress .gemini) ++ pathToModel (settings.chosenModel .gemini)) =
      some { secure := false, host := "h", portNumber := some 1, path := "/v1beta/models/m", query := none } := by
    rw [haddress, hmodel]
    decide +kernel
  rw [hread] at hurl
  have hpath : request.url.path = "/v1beta/models/m" := by rw [← Option.some.inj hurl]
  refine ⟨hask, hmodel, request, hsent, by rw [← Option.some.inj hurl]; rfl, ?_⟩
  rintro ⟨front, rest, hfront, hrest⟩
  -- what is received after the fixed part is an end of the path, and no end of it is the model
  have hends : ∀ rest ∈ "/v1beta/models/m".toList.tails,
      Utf8.decode ⟨(Url.percentDecode rest).toArray⟩ ≠ some "m#1:generateContent" := by decide +kernel
  have htext : front ++ "/v1beta/models/".toList ++ rest = "/v1beta/models/m".toList :=
    String.toList_ofList.symm.trans (congrArg String.toList (hfront.symm.trans hpath))
  exact hends rest ((List.mem_tails _ _).mpr ⟨_, htext⟩) hrest

end Backend

end NameAdvisor
