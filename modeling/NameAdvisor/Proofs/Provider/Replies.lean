import NameAdvisor.Proofs.Json.Draft
import NameAdvisor.Proofs.Json.DraftDecode
import NameAdvisor.Proofs.Json.Said
import NameAdvisor.Provider.Backend

/-!
# What becomes of a reply

A reply that was received in full settles a question in one of four ways: it answers it, it is not the JSON that the
backend writes, it is and lacks an answer, or it has a status of failure and says why.  Which of them it is depends on
the status, and on what the body writes.

## Main definitions

* `ReplyBody`: what the bodies of replies write, for each backend that is reached over the network.
* `ReplyBody.Fits`: a draft of such a body.
* `ReplyBody.Finds`: the answer in it.
* `ProviderError.ErrorText`: the text that a body gives for a failure.
* `Settles`: the outcome of a question to which a reply was received.
-/

namespace NameAdvisor

/-! ## Failures -/

namespace Json

/-- What an ordered object holds under a name is what the object says there. -/
theorem get_canonical (key : String) (j : Json) : get key j.canonical = ((said? key j).map canonical).getD .null := by
  cases j with
  | object members =>
    rw [canonical_object, get, said?, Members.find?_sorted_eq_last?, Members.last?_canonicalMembers]
    cases Members.last? key members with
    | none => rfl
    | some v => cases v <;> rfl
  | _ => rfl

theorem asString?_canonical (j : Json) : j.canonical.asString? = j.asString? := by
  cases j <;> simp [canonical, asString?]

theorem asString?_eq_some_iff {j : Json} {s : String} : j.asString? = some s ↔ j = .string s := by
  cases j <;> simp [asString?]

theorem asString?_get_canonical (key : String) (j : Json) :
    (get key j.canonical).asString? = (said? key j).bind asString? := by
  rw [get_canonical]
  cases said? key j with
  | none => rfl
  | some v => exact asString?_canonical v

end Json

namespace ProviderError

/-- The body gives `text` for a failure: as the message of its error, or as the error itself. -/
def ErrorText (body text : String) : Prop :=
  ∃ j, Json.parse body = .ok j ∧
    ((∃ e, Json.said? "error" j = some e ∧ Json.said? "message" e = some (.string text)) ∨
      Json.said? "error" j = some (.string text))

theorem reported?_eq_some_iff {body text : String} : reported? body = some text ↔ ErrorText body text := by
  unfold reported? ErrorText Json.parseCanonical
  cases Json.parse body with
  | error e => simp [Except.map]
  | ok j =>
    simp only [Except.map, Except.ok.injEq, exists_eq_left']
    rw [Json.asString?_get_canonical, Json.get_canonical]
    cases Json.said? "error" j with
    | none => simp [Json.get, Json.asString?]
    | some e =>
      simp only [Option.map_some, Option.getD_some, Json.asString?_get_canonical, Option.bind_some, Option.some.injEq,
        exists_eq_left', Option.or_eq_some_iff, Json.asString?_eq_some_iff, Option.bind_eq_some_iff]
      -- an error that is itself a text has no message
      have hplain : e = .string text → Json.said? "message" e = none := by
        rintro rfl
        rfl
      constructor
      · rintro (⟨v, hv, rfl⟩ | ⟨-, he⟩)
        · exact .inl hv
        · exact .inr he
      · rintro (hv | he)
        · exact .inl ⟨_, hv, rfl⟩
        · exact .inr ⟨by simp [hplain he], he⟩

/-- What an unsuccessful reply says of its failure: the text that its body gives, or else the status and the body. -/
def FailureText (status : Nat) (body : ByteArray) (text : String) : Prop :=
  ErrorText (Utf8.showBytes body) text ∨
    (∀ t, ¬ ErrorText (Utf8.showBytes body) t) ∧ text = "HTTP " ++ toString status ++ ": " ++ Utf8.showBytes body

theorem ofReply_eq_iff {status : Nat} {body : ByteArray} {e : ProviderError} :
    ofReply status (Utf8.showBytes body) = e ↔ ∃ text, e = .api status text ∧ FailureText status body text := by
  unfold ofReply FailureText
  simp only [← reported?_eq_some_iff]
  cases reported? (Utf8.showBytes body) with
  | some t => simp [eq_comm]
  | none => simp [eq_comm]

/-- The reply is not the JSON that was expected. -/
def IsJson : ProviderError → Prop
  | notJson _ | wrongShape _ => True
  | http _ | api _ _ | missingKey _ | process _ | timeout _ | malformed _ | other _ => False

end ProviderError

/-! ## Bodies -/

/-- What the body of a reply writes. -/
inductive ReplyBody where
  /-- The contents of the messages of the choices. -/
  | chat (contents : List (Option String))
  /-- The types and the texts of the blocks. -/
  | messages (blocks : List (String × Option String))
  /-- The texts of the parts of the contents of the candidates. -/
  | generated (candidates : List (Option (List (Option String))))
  /-- The response. -/
  | response (text : Option String)

namespace ReplyBody

open Json Json.Draft

def IsMessage : Draft → Option String → Prop :=
  IsSingle "content" (IsOptional IsText) (some none)

def IsChoice : Draft → Option String → Prop :=
  IsSingle "message" IsMessage none

def IsBlock (d : Draft) (block : String × Option String) : Prop :=
  ∃ given, Offers ["type", "text"] d given ∧ IsGiven IsText (some "") given "type" block.1 ∧
    IsGiven (IsOptional IsText) (some none) given "text" block.2

def IsPart : Draft → Option String → Prop :=
  IsSingle "text" (IsOptional IsText) (some none)

def IsContent : Draft → List (Option String) → Prop :=
  IsSingle "parts" (IsList IsPart) (some [])

def IsCandidate : Draft → Option (List (Option String)) → Prop :=
  IsSingle "content" (IsOptional IsContent) (some none)

/-- The draft is that of a body as a backend writes it. -/
def Fits (d : Draft) : ProviderKind → ReplyBody → Prop
  | .openai, chat contents => IsSingle "choices" (IsList IsChoice) (some []) d contents
  | .anthropic, messages blocks => IsSingle "content" (IsList IsBlock) (some []) d blocks
  | .gemini, generated candidates => IsSingle "candidates" (IsList IsCandidate) (some []) d candidates
  | .ollama, response text => IsSingle "response" (IsOptional IsText) (some none) d text
  | _, _ => False

/-- The bytes are a body as a backend writes it, with nothing after it. -/
def Writes (kind : ProviderKind) (bytes : ByteArray) (r : ReplyBody) : Prop :=
  ∃ d, Draft.ofBytes bytes = (d, none) ∧ r.Fits d kind

/-- The answer in a body: the content of the message of the first choice, the text of the first block of type `text`,
the first text among the parts of the first candidate, or the response. -/
inductive Finds : ReplyBody → String → Prop
  | choice {t : String} {others : List (Option String)} : Finds (chat (some t :: others)) t
  | block {t : String} {before after : List (String × Option String)} (h : ∀ b ∈ before, b.1 ≠ "text") :
    Finds (messages (before ++ ("text", some t) :: after)) t
  | part {t : String} {before after : List (Option String)} {others : List (Option (List (Option String)))}
    (h : ∀ p ∈ before, p = none) : Finds (generated (some (before ++ some t :: after) :: others)) t
  | response {t : String} : Finds (response (some t)) t

theorem finds_chat_iff {contents : List (Option String)} {t : String} :
    contents.head?.join = some t ↔ (chat contents).Finds t := by
  constructor
  · intro h
    rcases contents with _ | ⟨_ | first, others⟩
    · cases h
    · cases h
    · obtain rfl : first = t := Option.some.inj h
      exact .choice
  · rintro ⟨⟩
    rfl

theorem finds_messages_iff {blocks : List (String × Option String)} {t : String} :
    (blocks.find? (·.1 = "text")).bind (·.2) = some t ↔ (messages blocks).Finds t := by
  constructor
  · intro h
    obtain ⟨⟨type, text⟩, hfind, rfl⟩ := Option.bind_eq_some_iff.mp h
    obtain ⟨htype, before, after, rfl, hbefore⟩ := List.find?_eq_some_iff_append.mp hfind
    obtain rfl : type = "text" := by simpa using htype
    exact .block (by simpa using hbefore)
  · intro h
    cases h with
    | block hbefore =>
      refine Option.bind_eq_some_iff.mpr ⟨_, List.find?_eq_some_iff_append.mpr ⟨?_, _, _, rfl, ?_⟩, rfl⟩
      · simp
      · simpa using hbefore

theorem finds_generated_iff {candidates : List (Option (List (Option String)))} {t : String} :
    (candidates.head?.join).bind (fun ps => ps.findSome? id) = some t ↔ (generated candidates).Finds t := by
  constructor
  · intro h
    obtain ⟨parts, hparts, hfind⟩ := Option.bind_eq_some_iff.mp h
    obtain ⟨before, _, after, rfl, rfl, hbefore⟩ := List.findSome?_eq_some_iff.mp hfind
    rcases candidates with _ | ⟨_ | first, others⟩
    · cases hparts
    · cases hparts
    · obtain rfl := Option.some.inj hparts
      exact .part hbefore
  · intro h
    cases h with
    | part hbefore =>
      exact Option.bind_eq_some_iff.mpr ⟨_, rfl, List.findSome?_eq_some_iff.mpr ⟨_, _, _, rfl, rfl, hbefore⟩⟩

theorem finds_response_iff {text : Option String} {t : String} : text = some t ↔ (response text).Finds t := by
  constructor
  · rintro rfl
    exact .response
  · rintro ⟨⟩
    rfl

/-- What a body that is a text of JSON writes is what the draft of its value fits. -/
theorem writes_iff_of_decode {kind : ProviderKind} {bytes : ByteArray} {text : String} {j : Json}
    (ht : Utf8.decode bytes = some text) (hj : Json.parse text = .ok j) (r : ReplyBody) :
    Writes kind bytes r ↔ r.Fits j.draft kind := by
  rw [← Utf8.encode_of_decode ht]
  simp [Writes, ofBytes_encode hj]

/-! ## Readers of bodies -/

/-- The reader gives the answer in the bodies of a backend, if they have one. -/
def Reads (kind : ProviderKind) (read : Reader (Option String)) : Prop :=
  read.Reads fun d found => ∃ r : ReplyBody, r.Fits d kind ∧ ∀ t, found = some t ↔ r.Finds t

/-- A reader of data that are a body, followed by looking up the answer in them. -/
theorem reads_map {α : Type} {kind : ProviderKind} {read : Reader α} {P : Draft → α → Prop} (body : α → ReplyBody)
    (h : read.Reads P) (hfits : ∀ d r, Fits d kind r ↔ ∃ a, r = body a ∧ P d a) {look : α → Option String}
    (hlook : ∀ a t, look a = some t ↔ (body a).Finds t) : Reads kind fun d => (read d).map look := by
  intro d found
  simp only [map_eq_ok_iff, h d, hfits]
  constructor
  · rintro ⟨a, ha, rfl⟩
    exact ⟨body a, ⟨a, rfl, ha⟩, hlook a⟩
  · rintro ⟨_, ⟨a, rfl, ha⟩, hfound⟩
    exact ⟨a, ha, Option.ext fun t => (hlook a t).trans (hfound t).symm⟩

/-- There is at most one answer in a body. -/
theorem exists_found : ∀ r : ReplyBody, ∃ found : Option String, ∀ t, found = some t ↔ r.Finds t
  | chat _ => ⟨_, fun _ => finds_chat_iff⟩
  | messages _ => ⟨_, fun _ => finds_messages_iff⟩
  | generated _ => ⟨_, fun _ => finds_generated_iff⟩
  | response _ => ⟨_, fun _ => finds_response_iff⟩

section Bytes

variable {kind : ProviderKind} {read : Reader (Option String)} (h : Reads kind read) (bytes : ByteArray)
include h

theorem readBytes_eq_ok_iff {found : Option String} :
    readBytes read bytes = .ok found ↔ ∃ r, Writes kind bytes r ∧ ∀ t, found = some t ↔ r.Finds t := by
  rw [Draft.readBytes_eq_ok_iff h]
  constructor
  · rintro ⟨d, hd, r, hr, hfound⟩
    exact ⟨r, ⟨d, hd, hr⟩, hfound⟩
  · rintro ⟨r, ⟨d, hd, hr⟩, hfound⟩
    exact ⟨d, hd, r, hr, hfound⟩

theorem exists_writes_iff : (∃ r, Writes kind bytes r) ↔ ∃ found, readBytes read bytes = .ok found := by
  simp only [readBytes_eq_ok_iff h]
  constructor
  · rintro ⟨r, hr⟩
    obtain ⟨found, hfound⟩ := r.exists_found
    exact ⟨found, r, hr, hfound⟩
  · rintro ⟨found, r, hr, -⟩
    exact ⟨r, hr⟩

theorem exists_finds_iff {t : String} :
    (∃ r, Writes kind bytes r ∧ r.Finds t) ↔ readBytes read bytes = .ok (some t) := by
  constructor
  · rintro ⟨r, hr, ht⟩
    obtain ⟨found, hfound⟩ := r.exists_found
    obtain rfl := (hfound t).mpr ht
    exact (readBytes_eq_ok_iff h bytes).mpr ⟨r, hr, hfound⟩
  · intro hread
    obtain ⟨r, hr, hfound⟩ := (readBytes_eq_ok_iff h bytes).mp hread
    exact ⟨r, hr, (hfound t).mp rfl⟩

theorem exists_lacks_iff :
    (∃ r, Writes kind bytes r ∧ ∀ t, ¬ r.Finds t) ↔ readBytes read bytes = .ok none := by
  rw [readBytes_eq_ok_iff h]
  simp

end Bytes

end ReplyBody

namespace HostedApi

open Json Json.Draft ReplyBody

theorem reads_single {α : Type} {read : Reader α} {P : Draft → α → Prop} (h : read.Reads P) (title name : String)
    (default : α) : (single title name read default).Reads (IsSingle name P (some default)) := by
  refine Record.reads_ofDraft title (by simp) (fun r a => Record.field_eq_ok_iff h) ?_
  intro given a ha f hf v hv
  obtain rfl := List.mem_singleton.mp hf
  exact Record.check_of_isGiven h ha hv

theorem reads_messageContent : messageContent.Reads IsMessage :=
  reads_single Reader.reads_text.optional _ _ _

theorem reads_choiceContent : choiceContent.Reads IsChoice := by
  refine Record.reads_ofDraft _ (by decide) (fun r a => Record.required_eq_ok_iff reads_messageContent) ?_
  intro given a ha f hf v hv
  obtain rfl := List.mem_singleton.mp hf
  exact Record.check_of_isGiven reads_messageContent ha hv

theorem reads_block : block.Reads IsBlock := by
  refine Record.reads_ofDraft _ (by decide) (fun r b => ?_) ?_
  · obtain ⟨type, text⟩ := b
    simp only [bind_eq_ok_iff, Record.field_eq_ok_iff Reader.reads_text,
      Record.field_eq_ok_iff Reader.reads_text.optional]
    simp [pure, Except.pure]
  · rintro given b ⟨htype, htext⟩ f hf v hv
    obtain rfl | rfl := by simpa using hf
    · exact Record.check_of_isGiven Reader.reads_text htype hv
    · exact Record.check_of_isGiven Reader.reads_text.optional htext hv

theorem reads_candidate : candidate.Reads IsCandidate :=
  reads_single (reads_single (reads_single Reader.reads_text.optional _ _ _).list _ _ _).optional _ _ _

theorem reads_openai : Reads .openai openai.answer := by
  refine reads_map chat (reads_single reads_choiceContent.list _ _ _) (fun d r => ?_) fun _ _ => finds_chat_iff
  cases r <;> simp [ReplyBody.Fits]

theorem reads_anthropic : Reads .anthropic anthropic.answer := by
  refine reads_map messages (reads_single reads_block.list _ _ _) (fun d r => ?_) fun _ _ => finds_messages_iff
  cases r <;> simp [ReplyBody.Fits]

theorem reads_gemini : Reads .gemini gemini.answer := by
  refine reads_map generated (reads_single reads_candidate.list _ _ _) (fun d r => ?_) fun _ _ => finds_generated_iff
  cases r <;> simp [ReplyBody.Fits]

end HostedApi

theorem LocalServer.reads_answer : ReplyBody.Reads .ollama LocalServer.answer := by
  have hmap : ReplyBody.Reads .ollama fun d => (answer d).map id := by
    refine ReplyBody.reads_map .response (HostedApi.reads_single Json.Draft.Reader.reads_text.optional _ _ _)
      (fun d r => ?_) fun _ _ => ReplyBody.finds_response_iff
    cases r <;> simp [ReplyBody.Fits]
  have hid : (fun d => (answer d).map id) = answer := funext fun d => by cases answer d <;> rfl
  exact hid ▸ hmap

/-! ## Outcomes -/

/-- The outcome of a question to which a reply was received in full: the answer in a body, if the reply is successful
and has one; a failure to read it, if the body is not what the backend writes; a lack of an answer, if there is none in
it; and the failure that an unsuccessful reply reports. -/
structure Settles (kind : ProviderKind) (status : Nat) (body : ByteArray) (outcome : Except ProviderError String) :
    Prop where
  answers_iff : ∀ t, outcome = .ok t ↔
    (200 ≤ status ∧ status < 300) ∧ ∃ r, ReplyBody.Writes kind body r ∧ r.Finds t
  isJson_iff : (∃ e, outcome = .error e ∧ e.IsJson) ↔
    (200 ≤ status ∧ status < 300) ∧ ∀ r, ¬ ReplyBody.Writes kind body r
  malformed_iff : (∃ text, outcome = .error (.malformed text)) ↔
    (200 ≤ status ∧ status < 300) ∧ ∃ r, ReplyBody.Writes kind body r ∧ ∀ t, ¬ r.Finds t
  api_iff : ∀ s text, outcome = .error (.api s text) ↔
    ¬ (200 ≤ status ∧ status < 300) ∧ s = status ∧ ProviderError.FailureText status body text
  cases : (∃ t, outcome = .ok t) ∨ (∃ e, outcome = .error e ∧ e.IsJson) ∨
    (∃ text, outcome = .error (.malformed text)) ∨ ∃ s text, outcome = .error (.api s text)

/-- The outcome of reading the body of a successful reply. -/
def outcomeOf (missing : String) : Except Json.Failure (Option String) → Except ProviderError String
  | .error (.notJson fault) => .error (.notJson fault)
  | .error (.wrongShape mismatch) => .error (.wrongShape mismatch)
  | .ok none => .error (.malformed missing)
  | .ok (some answer) => .ok answer

section Exchange

variable {kind : ProviderKind} {status : Nat} {body : ByteArray}

theorem exchange_of_answered {client : HttpClient} {request : HttpRequest}
    (h : client.network.deliver client.sent request = .answered status body)
    (read : Json.Draft.Reader (Option String)) (missing : String) :
    (exchange client request read missing).1 =
      if 200 ≤ status ∧ status < 300 then outcomeOf missing (Json.Draft.readBytes read body)
      else .error (.ofReply status (Utf8.showBytes body)) := by
  by_cases hs : 200 ≤ status ∧ status < 300
  · have hsuccess : HttpClient.isSuccess status = true := by simpa [HttpClient.isSuccess] using hs
    rw [if_pos hs]
    simp only [exchange, HttpClient.send, h, hsuccess, Bool.not_true, Bool.false_eq_true, if_false]
    rfl
  · have hfailure : HttpClient.isSuccess status = false := by simpa [HttpClient.isSuccess] using hs
    rw [if_neg hs]
    simp only [exchange, HttpClient.send, h, hfailure, Bool.not_false, if_true]

theorem settles_ofReply (kind : ProviderKind) (hs : ¬ (200 ≤ status ∧ status < 300)) :
    Settles kind status body (.error (.ofReply status (Utf8.showBytes body))) := by
  obtain ⟨text, he, -⟩ := ProviderError.ofReply_eq_iff (e := .ofReply status (Utf8.showBytes body)).mp rfl
  constructor
  case answers_iff => simp [hs]
  case isJson_iff => simp [hs, he, ProviderError.IsJson]
  case malformed_iff => simp [hs, he]
  case api_iff =>
    intro s text
    simp only [Except.error.injEq, ProviderError.ofReply_eq_iff, ProviderError.api.injEq]
    simp [hs]
  case cases => exact .inr (.inr (.inr ⟨status, text, congrArg _ he⟩))

theorem settles_outcomeOf {read : Json.Draft.Reader (Option String)} (hread : ReplyBody.Reads kind read)
    (hs : 200 ≤ status ∧ status < 300) (missing : String) :
    Settles kind status body (outcomeOf missing (Json.Draft.readBytes read body)) := by
  have hwrites := ReplyBody.exists_writes_iff hread body
  have hfinds := fun t => ReplyBody.exists_finds_iff hread body (t := t)
  have hlacks := ReplyBody.exists_lacks_iff hread body
  generalize Json.Draft.readBytes read body = result at hwrites hfinds hlacks
  constructor
  case answers_iff =>
    intro t
    rw [hfinds t]
    rcases result with ⟨_ | _⟩ | _ | _ <;> simp [outcomeOf, hs]
  case isJson_iff =>
    rw [← not_exists, hwrites]
    rcases result with ⟨_ | _⟩ | _ | _ <;> simp [outcomeOf, hs, ProviderError.IsJson]
  case malformed_iff =>
    rw [hlacks]
    rcases result with ⟨_ | _⟩ | _ | _ <;> simp [outcomeOf, hs]
  case api_iff =>
    intro s text
    rcases result with ⟨_ | _⟩ | _ | _ <;> simp [outcomeOf, hs]
  case cases => rcases result with ⟨_ | _⟩ | _ | _ <;> simp [outcomeOf, ProviderError.IsJson]

theorem settles_exchange {read : Json.Draft.Reader (Option String)} (hread : ReplyBody.Reads kind read)
    {client : HttpClient} {request : HttpRequest}
    (h : client.network.deliver client.sent request = .answered status body) (missing : String) :
    Settles kind status body (exchange client request read missing).1 := by
  rw [exchange_of_answered h]
  split
  · next hs => exact settles_outcomeOf hread hs missing
  · next hs => exact settles_ofReply kind hs

end Exchange

/-! ## Backends -/

theorem NameSource.suggest_eq {π : Type} [NameSource π] (p : π) (q : PromptContext) :
    (suggest p q).1 =
      match (complete p (question p q)).1 with
      | .ok text => ⟨Answer.suggestions text q.current, some (kind (complete p (question p q)).2).label⟩
      | .error _ => .empty q.current := by
  unfold suggest
  rcases complete p (question p q) with ⟨_ | _, _⟩ <;> rfl

theorem Hosted.api_complete (h : Hosted) (prompt : String) : (h.complete prompt).2.api = h.api := by
  unfold complete
  split
  · rfl
  · split <;> rfl

/-- What a question sends is the request that the backend makes of it. -/
theorem Hosted.request?_of_sent {h : Hosted} {prompt : String} {request : HttpRequest}
    (hsent : (h.complete prompt).2.client.sent = h.client.sent ++ [request]) :
    ∃ key, h.key = some key ∧ h.request? key prompt = some request := by
  unfold complete at hsent
  cases hkey : h.key with
  | none => simp [hkey] at hsent
  | some key =>
    refine ⟨key, rfl, ?_⟩
    cases hrequest : h.request? key prompt with
    | none => simp [hkey, hrequest] at hsent
    | some sent =>
      obtain rfl : sent = request := by simpa [hkey, hrequest, exchange, HttpClient.send] using hsent
      rfl

theorem LocalServer.request?_of_sent {s : LocalServer} {prompt : String} {request : HttpRequest}
    (hsent : (s.complete prompt).2.client.sent = s.client.sent ++ [request]) : s.request? prompt = some request := by
  unfold complete at hsent
  cases hrequest : s.request? prompt with
  | none => simp [hrequest] at hsent
  | some sent =>
    obtain rfl : sent = request := by simpa [hrequest, exchange, HttpClient.send] using hsent
    rfl

theorem Hosted.settles_complete {h : Hosted} {kind : ProviderKind} (hread : ReplyBody.Reads kind h.api.answer)
    {prompt : String} {request : HttpRequest} {status : Nat} {body : ByteArray}
    (hsent : (h.complete prompt).2.client.sent = h.client.sent ++ [request])
    (hanswered : h.client.network.deliver h.client.sent request = .answered status body) :
    Settles kind status body (h.complete prompt).1 := by
  obtain ⟨key, hkey, hrequest⟩ := request?_of_sent hsent
  simp only [complete, hkey, hrequest]
  exact settles_exchange hread hanswered _

theorem LocalServer.settles_complete {s : LocalServer} {prompt : String} {request : HttpRequest} {status : Nat}
    {body : ByteArray} (hsent : (s.complete prompt).2.client.sent = s.client.sent ++ [request])
    (hanswered : s.client.network.deliver s.client.sent request = .answered status body) :
    Settles .ollama status body (s.complete prompt).1 := by
  have hrequest := request?_of_sent hsent
  simp only [complete, hrequest]
  exact settles_exchange reads_answer hanswered _

namespace Backend

/-- The client of a backend that is reached over the network. -/
def client? : Backend → Option HttpClient
  | assistant _ => none
  | hosted h => some h.client
  | server s => some s.client

/-- A backend with another client, if it is reached over the network. -/
def withClient (client : HttpClient) : Backend → Backend
  | assistant a => assistant a
  | hosted h => hosted { h with client }
  | server s => server { s with client }

theorem kind_complete (b : Backend) (prompt : String) : (b.complete prompt).2.kind = b.kind := by
  cases b with
  | assistant a => rfl
  | hosted h => exact congrArg HostedApi.kind (h.api_complete prompt)
  | server s => rfl

/-- The names that a backend gives are those in an answer, with its label. -/
theorem suggest_eq (b : Backend) (q : PromptContext) :
    (NameSource.suggest b q).1 =
      match (b.complete (b.question q)).1 with
      | .ok text => ⟨Answer.suggestions text q.current, some b.kind.label⟩
      | .error _ => .empty q.current := by
  rw [← kind_complete b (b.question q)]
  exact NameSource.suggest_eq b q

section Settings

variable (settings : Settings) (around : Surroundings) (client : HttpClient)

/-- The kind of a backend is the one that it was configured as. -/
theorem kind_ofSettings (kind : ProviderKind) : ((ofSettings settings around kind).withClient client).kind = kind := by
  cases kind <;> rfl

/-- A backend that is reached over the network is hosted, with an interface whose bodies it reads, or a local server. -/
theorem exists_ofSettings {kind : ProviderKind} (hkind : kind ≠ .copilot) :
    (∃ h : Hosted, (ofSettings settings around kind).withClient client = hosted h ∧ h.client = client ∧
      ReplyBody.Reads kind h.api.answer) ∨
    ∃ s : LocalServer, (ofSettings settings around kind).withClient client = server s ∧ s.client = client ∧
      kind = .ollama := by
  cases kind with
  | copilot => exact absurd rfl hkind
  | openai => exact .inl ⟨_, rfl, rfl, HostedApi.reads_openai⟩
  | anthropic => exact .inl ⟨_, rfl, rfl, HostedApi.reads_anthropic⟩
  | gemini => exact .inl ⟨_, rfl, rfl, HostedApi.reads_gemini⟩
  | ollama => exact .inr ⟨_, rfl, rfl, rfl⟩

end Settings

/-- A backend that is reached over the network, whatever it has sent before, settles a question for which it sends a
request and receives a reply in full.  Asked for names, it gives those in an answer, with its label, and none without a
label otherwise.  Where the body is a text of JSON, its value alone decides what it writes. -/
theorem settles_of_answered (settings : Settings) (around : Surroundings) {kind : ProviderKind}
    (hkind : kind ≠ .copilot) (client : HttpClient) {prompt : String} {request : HttpRequest} {status : Nat} {body : ByteArray}
    (hsent : ((((ofSettings settings around kind).withClient client).complete prompt).2.client?).map (·.sent) =
      some (client.sent ++ [request]))
    (hanswered : client.network.deliver client.sent request = .answered status body) :
    let b := (ofSettings settings around kind).withClient client
    Settles kind status body (b.complete prompt).1 ∧
      (∀ q : PromptContext, b.question q = prompt →
        (NameSource.suggest b q).1 =
          match (b.complete prompt).1 with
          | .ok text => ⟨Answer.suggestions text q.current, some kind.label⟩
          | .error _ => .empty q.current) ∧
      ∀ text j, Utf8.decode body = some text → Json.parse text = .ok j →
        ∀ r, ReplyBody.Writes kind body r ↔ r.Fits j.draft kind := by
  refine ⟨?_, ?_, fun text j => ReplyBody.writes_iff_of_decode⟩
  · obtain ⟨h, hb, rfl, hread⟩ | ⟨s, hb, rfl, rfl⟩ := exists_ofSettings settings around client hkind
    · rw [hb] at hsent ⊢
      exact Hosted.settles_complete hread (Option.some.inj hsent) hanswered
    · rw [hb] at hsent ⊢
      exact LocalServer.settles_complete (Option.some.inj hsent) hanswered
  · rintro q rfl
    rw [suggest_eq, kind_ofSettings]

/-- What is passed over may be unclean: here it has half of a pair of surrogates, a byte that belongs to no character and
a number that is too large. -/
theorem settles_of_answered_unclean :
    let settings : Settings := { gemini := { apiKey := "k", baseUrl := "http://h:1" } }
    let unclean := Utf8.encode "\x7b\"a\":[\"\\ud800" ++ ⟨#[0xFF]⟩ ++ Utf8.encode "\",1e999],"
    let clean := "\"candidates\":[\x7b\"content\":\x7b\"parts\":[\x7b\"text\":null\x7d,\x7b\"text\":\"userName\"\x7d]\x7d\x7d]\x7d"
    let body := unclean ++ Utf8.encode clean
    let client : HttpClient := { network := ⟨fun _ _ => .answered 200 body⟩ }
    let b := (ofSettings settings {} .gemini).withClient client
    let q : PromptContext := { current := "x", kind := .function, context := "", file := {} }
    (∃ request, (b.complete (b.question q)).2.client?.map (·.sent) = some [request]) ∧
      (NameSource.suggest b q).1 = ⟨Answer.suggestions "userName" "x", some "Google Gemini"⟩ := by
  intro settings unclean clean body client b q
  have hone : (b.complete (b.question q)).2.client?.map (·.sent.length) = some 1 := by decide +kernel
  obtain ⟨after, hafter, hlength⟩ := Option.map_eq_some_iff.mp hone
  obtain ⟨request, hrequest⟩ := List.length_eq_one_iff.mp hlength
  have hsent : (b.complete (b.question q)).2.client?.map (·.sent) = some [request] := by simp [hafter, hrequest]
  obtain ⟨hsettles, hsuggest, -⟩ := settles_of_answered settings {} (by decide) client hsent rfl
  have hbody : ∃ r, ReplyBody.Writes .gemini body r ∧ r.Finds "userName" :=
    (ReplyBody.exists_finds_iff HostedApi.reads_gemini body).mpr (by decide +kernel)
  have hok := (hsettles.answers_iff "userName").mpr ⟨by decide, hbody⟩
  refine ⟨⟨request, hsent⟩, ?_⟩
  rw [hsuggest q rfl, hok]
  rfl

end Backend

end NameAdvisor
