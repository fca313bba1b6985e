import NameAdvisor.Proofs.Network.Url
import NameAdvisor.Proofs.Settings.Precedence
import NameAdvisor.Provider.Backend

/-!
# The keys of hosted backends

What counts as a key is decided when the environment is put over the settings, when a backend is configured and when
it is asked.  All of them agree: a hosted backend is available exactly if the settings file or the environment holds a
key that is not blank, and each question it is asked then goes out with that key, the one of the file first.

## Main definitions

* `Hosted.after`: a backend that was asked some questions.
* `Hosted.Presents`: a request that gives a key to the server of a base address.
* `Hosted.UsesKey`: what a backend makes of the key in a settings file and the one in the environment.
-/

namespace NameAdvisor

/-! ## Blank keys -/

theorem Text.isEmpty_trim (s : String) : (trim s).isEmpty = isBlankText s := by
  rw [Bool.eq_iff_iff, String.isEmpty_iff, ← String.toList_inj, toList_trim, String.toList_empty, isBlankText,
    List.all_eq_true]
  constructor
  · intro h c hc
    have hback : ((s.toList.dropWhile isBlank).reverse.dropWhile isBlank) = [] := List.reverse_eq_nil_iff.mp h
    rw [List.dropWhile_eq_nil_iff] at hback
    rw [← List.takeWhile_append_dropWhile (p := isBlank) (l := s.toList), List.mem_append] at hc
    rcases hc with htake | hdrop
    · exact List.mem_takeWhile_imp htake
    · exact hback c (List.mem_reverse.mpr hdrop)
  · exact trimChars_of_all_blank

theorem HostedSettings.hasKey_eq (h : HostedSettings) : h.hasKey = !Text.isBlankText h.apiKey := by
  rw [hasKey, Text.isEmpty_trim]

theorem ApiKey.ofSetting?_eq (raw : String) :
    ofSetting? raw = if Text.isBlankText raw then none else some ⟨Text.trim raw⟩ := by
  rw [ofSetting?, Text.isEmpty_trim]

theorem Environment.read_eq (env : Environment) (name : String) :
    env.read name = (env name).filter (!Text.isBlankText ·) := by
  simp only [read, Text.isEmpty_trim]

/-- Filling the gap where a key should be leaves the address alone. -/
theorem HostedSettings.baseUrl_elim_fillKey (h : HostedSettings) (key : Option String) :
    (key.elim h h.fillKey).baseUrl = h.baseUrl := by
  cases key with
  | none => rfl
  | some key =>
    rw [Option.elim_some, fillKey]
    split <;> rfl

/-- The key of settings whose gap the environment fills is that of the settings, if they have one. -/
theorem ApiKey.ofSetting?_fillKey (h : HostedSettings) (env : Environment) (name : String) :
    ofSetting? ((env.read name).elim h h.fillKey).apiKey =
      if Text.isBlankText h.apiKey then ofSetting? ((env name).getD "") else some ⟨Text.trim h.apiKey⟩ := by
  have hblank : Text.isBlankText "" = true := rfl
  rw [Environment.read_eq]
  cases hk : Text.isBlankText h.apiKey with
  | false =>
    have hfill : ∀ key, (h.fillKey key).apiKey = h.apiKey := by
      intro key
      simp [HostedSettings.fillKey, HostedSettings.hasKey_eq, hk]
    cases (env name).filter (!Text.isBlankText ·) <;> simp [hfill, ofSetting?_eq, hk]
  | true =>
    have hfill : ∀ key, (h.fillKey key).apiKey = key := by
      intro key
      simp [HostedSettings.fillKey, HostedSettings.hasKey_eq, hk]
    cases env name with
    | none => simp [ofSetting?_eq, hk, hblank]
    | some v => cases hv : Text.isBlankText v <;> simp [Option.filter, hv, hfill, ofSetting?_eq, hk]

/-! ## The settings of a hosted backend under the environment -/

namespace Settings

variable (s : Settings) (env : Environment) (kind : ProviderKind)

theorem hosted?_modifyHosted (changed : ProviderKind) (f : HostedSettings → HostedSettings) :
    (s.modifyHosted changed f).hosted? kind = if changed = kind then (s.hosted? kind).map f else s.hosted? kind := by
  cases changed <;> cases kind <;> rfl

theorem hosted?_withKey (changed : ProviderKind) (name : String) :
    (withKey env s (changed, name)).hosted? kind =
      if changed = kind then (s.hosted? kind).map fun h => (env.read name).elim h h.fillKey else s.hosted? kind := by
  unfold withKey
  cases env.read name with
  | none => simp
  | some key => simp [hosted?_modifyHosted]

theorem hosted?_withPolicy : (withPolicy env s).hosted? kind = s.hosted? kind := by
  unfold withPolicy
  split <;> cases kind <;> rfl

theorem hosted?_withEndpoint : (withEndpoint env s).hosted? kind = s.hosted? kind := by
  unfold withEndpoint
  split <;> cases kind <;> rfl

theorem hosted?_withModel : (withModel env s).hosted? kind = s.hosted? kind := by
  unfold withModel
  split <;> cases kind <;> rfl

/-- A limit for all backends leaves their keys and addresses alone. -/
theorem exists_hosted?_withHttpTimeout {h : HostedSettings} (hs : s.hosted? kind = some h) :
    ∃ ms, (withHttpTimeout env s).hosted? kind = some { h with timeoutMs := ms } := by
  unfold withHttpTimeout
  split
  · next ms _ =>
    refine ⟨ms, ?_⟩
    cases kind <;> cases hs <;> rfl
  · exact ⟨h.timeoutMs, hs⟩

/-- Each variable for a key is looked at for its own backend. -/
theorem hosted?_foldl_withKey {name : String} (hv : (kind, name) ∈ keyVariables) :
    (keyVariables.foldl (withKey env) s).hosted? kind =
      (s.hosted? kind).map fun h => (env.read name).elim h h.fillKey := by
  simp only [keyVariables, List.foldl_cons, List.foldl_nil, hosted?_withKey]
  simp only [keyVariables, List.mem_cons, Prod.mk.injEq, List.not_mem_nil, or_false] at hv
  obtain ⟨rfl, rfl⟩ | ⟨rfl, rfl⟩ | ⟨rfl, rfl⟩ := hv <;> simp

theorem exists_hosted? {name : String} (hv : (kind, name) ∈ keyVariables) : ∃ h, s.hosted? kind = some h := by
  simp only [keyVariables, List.mem_cons, Prod.mk.injEq, List.not_mem_nil, or_false] at hv
  obtain ⟨rfl, -⟩ | ⟨rfl, -⟩ | ⟨rfl, -⟩ := hv <;> exact ⟨_, rfl⟩

/-- Under the environment a hosted backend keeps its settings but for a gap where its key should be, which its variable
fills, and its time limit. -/
theorem exists_hosted?_withEnvironment {name : String} (hv : (kind, name) ∈ keyVariables) :
    ∃ file h, s.hosted? kind = some file ∧ (s.withEnvironment env).hosted? kind = some h ∧
      h.apiKey = ((env.read name).elim file file.fillKey).apiKey ∧ h.baseUrl = file.baseUrl := by
  obtain ⟨file, hfile⟩ := exists_hosted? s kind hv
  have hkeys := hosted?_foldl_withKey s env kind hv
  rw [hfile, Option.map_some, ← hosted?_withPolicy _ env, ← hosted?_withEndpoint _ env,
    ← hosted?_withModel _ env] at hkeys
  obtain ⟨ms, hms⟩ := exists_hosted?_withHttpTimeout _ env kind hkeys
  refine ⟨file, _, hfile, hms, rfl, ?_⟩
  simp only [HostedSettings.baseUrl_elim_fillKey]

end Settings

/-! ## The interfaces of hosted backends -/

/-- The header by which a hosted backend is given a key. -/
def ProviderKind.credential? (key : String) : ProviderKind → Option (String × String)
  | .openai => some ("authorization", "Bearer " ++ key)
  | .anthropic => some ("x-api-key", key)
  | .gemini => some ("x-goog-api-key", key)
  | .copilot | .ollama => none

namespace HostedApi

/-- The interface gives its key in the header of its backend and in no other, its paths start with a slash, and they may
be put after its own address. -/
structure Proper (api : HostedApi) : Prop where
  credential : ∀ key, api.kind.credential? key = some (api.keyHeader.1, api.keyHeader.2 key)
  others : ∀ header ∈ api.headers ++ [("content-type", "application/json")], header.1 ≠ api.keyHeader.1
  path : ∀ model, ∃ rest, (api.path model).toList = '/' :: rest
  base : Url.IsBase api.defaultBase

/-- No header of the interface but the one for the key is named like that one. -/
theorem Proper.filter_headers {api : HostedApi} (h : api.Proper) (key : String) (front : List (String × String)) :
    (front ++ (api.keyHeader.1, api.keyHeader.2 key) :: (api.headers ++ [("content-type", "application/json")])).filter
        (·.1 = api.keyHeader.1) =
      front.filter (·.1 = api.keyHeader.1) ++ [(api.keyHeader.1, api.keyHeader.2 key)] := by
  have hothers : (api.headers ++ [("content-type", "application/json")]).filter (·.1 = api.keyHeader.1) = [] :=
    List.filter_eq_nil_iff.mpr fun header hm => by simpa using h.others header hm
  rw [List.filter_append, List.filter_cons_of_pos (by simp), hothers]

theorem proper_openai : openai.Proper where
  credential _ := rfl
  others := by decide
  path _ := ⟨"v1/chat/completions".toList, by simp [openai]⟩
  base := .of_getLast? (c := 'm') (by decide +kernel) (by decide +kernel) rfl

theorem proper_anthropic : anthropic.Proper where
  credential _ := rfl
  others := by decide
  path _ := ⟨"v1/messages".toList, by simp [anthropic]⟩
  base := .of_getLast? (c := 'm') (by decide +kernel) (by decide +kernel) rfl

theorem proper_gemini : gemini.Proper where
  credential _ := rfl
  others := by decide
  path model := ⟨("v1beta/models/" ++ model ++ ":generateContent").toList, by simp [gemini]⟩
  base := .of_getLast? (c := 'm') (by decide +kernel) (by decide +kernel) rfl

/-- The backend for settings of a hosted one speaks a proper interface and is otherwise as these settings say. -/
theorem exists_ofSettings {settings : Settings} {kind : ProviderKind} {h : HostedSettings}
    (hs : settings.hosted? kind = some h) (around : Surroundings) :
    ∃ api : HostedApi, api.Proper ∧ api.kind = kind ∧
      Backend.ofSettings settings around kind = .hosted (.ofSettings api h around.network) := by
  cases kind with
  | openai => cases hs; exact ⟨openai, proper_openai, rfl, rfl⟩
  | anthropic => cases hs; exact ⟨anthropic, proper_anthropic, rfl, rfl⟩
  | gemini => cases hs; exact ⟨gemini, proper_gemini, rfl, rfl⟩
  | copilot => cases hs
  | ollama => cases hs

end HostedApi

/-! ## Asking a hosted backend -/

namespace Hosted

/-- The backend after it was asked the questions `prompts` in turn. -/
def after (h : Hosted) (prompts : List String) : Hosted :=
  prompts.foldl (fun h prompt => (h.complete prompt).2) h

/-- A question changes what was sent, and nothing about the backend. -/
theorem exists_complete_eq (h : Hosted) (prompt : String) : ∃ client, (h.complete prompt).2 = { h with client } := by
  unfold complete
  split
  · exact ⟨h.client, rfl⟩
  · split
    · exact ⟨h.client, rfl⟩
    · exact ⟨_, rfl⟩

theorem exists_after_eq (h : Hosted) (prompts : List String) : ∃ client, h.after prompts = { h with client } := by
  induction prompts generalizing h with
  | nil => exact ⟨h.client, rfl⟩
  | cons prompt rest ih =>
    obtain ⟨client, hc⟩ := h.exists_complete_eq prompt
    obtain ⟨client', hr⟩ := ih (h.complete prompt).2
    refine ⟨client', ?_⟩
    rw [hc] at hr
    rw [after, List.foldl_cons, hc]
    exact hr

theorem complete_of_none {h : Hosted} (hk : h.key = none) (prompt : String) :
    h.complete prompt = (.error (.missingKey h.api.kind), h) := by
  simp [complete, hk]

/-- A question for which a request can be made sends just that. -/
theorem sent_complete {h : Hosted} {key : ApiKey} {prompt : String} {request : HttpRequest} (hk : h.key = some key)
    (hr : h.request? key prompt = some request) :
    (h.complete prompt).2.client.sent = h.client.sent ++ [request] := by
  simp [complete, hk, hr, exchange, HttpClient.send]

theorem exists_slashes (s : String) :
    ∃ slashes, s.toList = (withoutSlashes s).toList ++ slashes ∧ ∀ c ∈ slashes, c = '/' := by
  refine ⟨(s.toList.reverse.takeWhile (· = '/')).reverse, ?_, ?_⟩
  · rw [withoutSlashes, String.toList_ofList, ← List.reverse_append, List.takeWhile_append_dropWhile,
      List.reverse_reverse]
  · intro c hc
    simpa using List.mem_takeWhile_imp (List.mem_reverse.mp hc)

/-- The request goes to the server that the base address names.  Its headers named like `header` are that one and before
it those for the credentials of the base address, of which there are none without an `@`. -/
structure Presents (request : HttpRequest) (header : String × String) (base : String) : Prop where
  server : ∃ url, Url.parse? base = some url ∧ request.url.server = url.server
  headers : request.headers.filter (·.1 = header.1) =
    request.url.authorization.filter (·.1 = header.1) ++ [header]
  alone : '@' ∉ base.toList → request.headers.filter (·.1 = header.1) = [header]

/-- A backend with a key that can stand in a header and a base address makes requests, which present that key. -/
theorem exists_request {h : Hosted} (hapi : h.api.Proper) {base : String} (hbase : Url.IsBase base)
    (ha : h.baseUrl = withoutSlashes base) {key : ApiKey} (hk : HttpClient.isHeaderText key.secret = true)
    (prompt : String) :
    ∃ request header, h.request? key prompt = some request ∧ h.api.kind.credential? key.secret = some header ∧
      Presents request header base := by
  obtain ⟨slashes, hs, hall⟩ := exists_slashes base
  obtain ⟨rest, hp⟩ := hapi.path h.model
  have haddress : h.address = String.ofList ((withoutSlashes base).toList ++ '/' :: rest) := by
    rw [address, ha, ← hp, String.ofList_append, String.ofList_toList, String.ofList_toList]
  obtain ⟨asked, url, hasked, hurl, hserver⟩ := hbase.exists_parse? hs hall rest
  rw [← haddress] at hurl
  obtain ⟨request, hr, rfl, hheaders⟩ : ∃ request, h.request? key prompt = some request ∧ request.url = url ∧
      request.headers = url.authorization ++ (h.api.keyHeader.1, h.api.keyHeader.2 key.secret) ::
        (h.api.headers ++ [("content-type", "application/json")]) := by
    simp [request?, hk, hurl]
  have hfilter := hapi.filter_headers key.secret request.url.authorization
  rw [← hheaders] at hfilter
  refine ⟨request, _, hr, hapi.credential key.secret, ⟨asked, hasked, hserver⟩, hfilter, fun hno => ?_⟩
  have hnobody : request.url.authorization = [] := by
    rw [Authority.authorization, (Prod.mk.inj hserver).2, Url.credentials_of_notMem hasked hno]
    rfl
  rw [hfilter, hnobody, List.filter_nil, List.nil_append]

/-- The first of two keys that is not blank, without the blanks around it. -/
def chosenKey (k e : String) : String :=
  if Text.isBlankText k then Text.trim e else Text.trim k

/-- What a backend makes of the key `k` in a settings file, the key `e` in the environment and the address `base`,
whatever it was asked before. -/
structure UsesKey (h : Hosted) (k e base : String) : Prop where
  /-- It is available exactly if one of the keys is not blank, and sends nothing to find out. -/
  probe : ∀ prompts, NameSource.probe (h.after prompts) =
    (!Text.isBlankText k || !Text.isBlankText e, h.after prompts)
  /-- A question sends one request, which presents the first key that is not blank. -/
  sends : Text.isBlankText k = false ∨ Text.isBlankText e = false → HttpClient.isHeaderText (chosenKey k e) = true →
    Url.IsBase base → ∀ prompts prompt, ∃ request header,
      ((h.after prompts).complete prompt).2.client.sent = (h.after prompts).client.sent ++ [request] ∧
        h.api.kind.credential? (chosenKey k e) = some header ∧ Presents request header base
  /-- Without a key a question is refused, and nothing is sent. -/
  refuses : Text.isBlankText k = true → Text.isBlankText e = true → ∀ prompts prompt,
    (h.after prompts).complete prompt = (.error (.missingKey h.api.kind), h.after prompts) ∧
      (h.after prompts).client = h.client

theorem after_of_none {h : Hosted} (hk : h.key = none) (prompts : List String) : h.after prompts = h := by
  induction prompts with
  | nil => rfl
  | cons prompt rest ih => rw [after, List.foldl_cons, complete_of_none hk]; exact ih

theorem usesKey_of_key_eq {h : Hosted} (hapi : h.api.Proper) {k e base : String}
    (hk : h.key = if Text.isBlankText k then ApiKey.ofSetting? e else some ⟨Text.trim k⟩)
    (hb : h.baseUrl = withoutSlashes base) : h.UsesKey k e base := by
  rw [ApiKey.ofSetting?_eq] at hk
  constructor
  case probe =>
    intro prompts
    obtain ⟨client, ha⟩ := h.exists_after_eq prompts
    have havailable : (h.after prompts).isAvailable = (!Text.isBlankText k || !Text.isBlankText e) := by
      rw [ha, isAvailable, hk]
      cases Text.isBlankText k <;> cases Text.isBlankText e <;> rfl
    exact Prod.ext havailable rfl
  case sends =>
    intro hne hheader hbase prompts prompt
    obtain ⟨client, ha⟩ := h.exists_after_eq prompts
    have hkey : (h.after prompts).key = some ⟨chosenKey k e⟩ := by
      rw [ha, hk, chosenKey]
      cases hbk : Text.isBlankText k with
      | false => rfl
      | true =>
        have hbe : Text.isBlankText e = false := hne.resolve_left (by simp [hbk])
        simp [hbe]
    have hapi' : (h.after prompts).api.Proper := ha ▸ hapi
    have hb' : (h.after prompts).baseUrl = withoutSlashes base := by rw [ha, hb]
    have hkind : (h.after prompts).api.kind = h.api.kind := by rw [ha]
    obtain ⟨request, header, hr, hc, hf⟩ := exists_request hapi' hbase hb' hheader prompt
    exact ⟨request, header, sent_complete hkey hr, hkind ▸ hc, hf⟩
  case refuses =>
    intro hbk hbe prompts prompt
    have hnone : h.key = none := by simp [hk, hbk, hbe]
    rw [after_of_none hnone]
    exact ⟨complete_of_none hnone prompt, rfl⟩

end Hosted

/-- With the settings of the first candidate that yields any, a hosted backend uses the key in them, or that of its
variable where they have none. -/
theorem Settings.usesKey_of_load {fs : FileSystem} {candidates : List Path} {found : Option (Path × Settings)}
    (hf : FirstOf fs candidates found) {kind : ProviderKind} {name : String} (hv : (kind, name) ∈ keyVariables)
    (env : Environment) (around : Surroundings) :
    ∃ file h, (found.elim ({} : Settings) (·.2)).hosted? kind = some file ∧
      Backend.ofSettings (load fs candidates env).settings around kind = .hosted h ∧ h.api.kind = kind ∧
      h.client.sent = [] ∧
      h.UsesKey file.apiKey ((env name).getD "") (orDefault file.baseUrl h.api.defaultBase) := by
  obtain ⟨file, settings, hfile, hsettings, hkey, hbase⟩ :=
    exists_hosted?_withEnvironment (found.elim {} (·.2)) env kind hv
  have hload : (load fs candidates env).settings.hosted? kind = some settings := by
    simp only [load, hf.firstUsable_eq]
    exact hsettings
  obtain ⟨api, hapi, hkind, hback⟩ := HostedApi.exists_ofSettings hload around
  refine ⟨file, _, hfile, hback, hkind, rfl, Hosted.usesKey_of_key_eq hapi ?_ ?_⟩
  · rw [← ApiKey.ofSetting?_fillKey, ← hkey, Hosted.ofSettings]
  · rw [← hbase, Hosted.ofSettings]

/-- A key of blanks counts as none, and the variable's key is sent without the blanks around it. -/
theorem Settings.usesKey_of_blank_in_file :
    let text := "\x7b\"openai\":\x7b\"apiKey\":\" \\u2003\",\"baseUrl\":\"http://h:1/\"\x7d\x7d"
    let fs : FileSystem := { entries := [(["ai.json"], .file (Utf8.encode text))] }
    let s : Settings := { openai := { apiKey := " \u2003", model := "gpt-4o-mini", baseUrl := "http://h:1/" } }
    let env : Environment := fun name => if name = "OPENAI_API_KEY" then some " sk-1\n" else none
    FirstOf fs [⟨"none.json"⟩, ⟨"ai.json"⟩] (some (⟨"ai.json"⟩, s)) ∧ (.openai, "OPENAI_API_KEY") ∈ keyVariables ∧
      ∃ h request, Backend.ofSettings (load fs [⟨"none.json"⟩, ⟨"ai.json"⟩] env).settings {} .openai = .hosted h ∧
        (NameSource.probe h).1 = true ∧ (h.complete "prompt").2.client.sent = [request] ∧
        request.headers.filter (·.1 = "authorization") = [("authorization", "Bearer sk-1")] := by
  intro text fs s env
  have hf : FirstOf fs [⟨"none.json"⟩, ⟨"ai.json"⟩] (some (⟨"ai.json"⟩, s)) :=
    .skip (.inl (by decide +kernel)) (.use (by decide +kernel) (by decide +kernel))
  have hv : (.openai, "OPENAI_API_KEY") ∈ keyVariables := by decide
  obtain ⟨file, h, hfile, hback, hkind, hsent, huse⟩ := usesKey_of_load hf hv env {}
  obtain rfl : s.openai = file := Option.some.inj hfile
  have hb : orDefault s.openai.baseUrl h.api.defaultBase = "http://h:1/" := by
    rw [orDefault, if_neg (by decide +kernel)]
    decide +kernel
  have hbase : Url.IsBase (orDefault s.openai.baseUrl h.api.defaultBase) := by
    rw [hb]
    exact .of_getLast? (c := '/') (by decide +kernel) (by decide +kernel) rfl
  obtain ⟨request, header, hs, hc, hheader⟩ :=
    huse.sends (.inr (by decide +kernel)) (by decide +kernel) hbase [] "prompt"
  rw [hkind] at hc
  have hc' : header = ("authorization", "Bearer sk-1") := (Option.some.inj hc).symm.trans (by decide +kernel)
  have hkeys : (!Text.isBlankText s.openai.apiKey || !Text.isBlankText ((env "OPENAI_API_KEY").getD "")) = true := by
    decide +kernel
  refine ⟨hf, hv, h, request, hback, ?_, ?_, ?_⟩
  · exact (congrArg Prod.fst (huse.probe [])).trans hkeys
  · simpa [hsent, Hosted.after] using hs
  · simpa [hc'] using hheader.alone (by rw [hb]; decide)

end NameAdvisor
