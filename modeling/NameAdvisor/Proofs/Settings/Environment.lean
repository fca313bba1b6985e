import Mathlib
import NameAdvisor.Proofs.Provider.Keys
import NameAdvisor.Proofs.Text.Numeral

/-!
# What the environment does to settings

The variables of the environment fill missing keys and set the policy, the address and the model of the local server and
one limit for all questions over the network.  Putting them over settings a second time changes nothing, a key that is
there stays, nothing else is touched, and a variable whose value cannot be used might as well not be set.

## Main definitions

* `HostedSettings.keyUnder`, `Environment.httpTimeout?`: what becomes of a key, and the limit that is set.
* `Environment.Useless`, `Environment.Clears`: values that cannot be used, and environments without some of them.
-/

namespace NameAdvisor

/-- The limit for questions over the network that the environment sets, if it sets an acceptable one. -/
def Environment.httpTimeout? (env : Environment) : Option Nat :=
  (env.read "NAMER_HTTP_TIMEOUT_MS").bind (Numeral.readInRange · Settings.minTimeoutMs Settings.maxTimeoutMs)

/-! ## Keys -/

namespace HostedSettings

variable (h : HostedSettings) (value : Option String)

/-- The key, or where there is none yet the value of its variable. -/
def keyUnder : String :=
  if h.hasKey then h.apiKey else value.getD h.apiKey

theorem hasKey_iff : h.hasKey = true ↔ ∃ c ∈ h.apiKey.toList, Text.isBlank c = false := by
  simp [hasKey_eq, Text.isBlankText]

theorem elim_fillKey : value.elim h h.fillKey = { h with apiKey := h.keyUnder value } := by
  unfold keyUnder
  cases value with
  | none => simp
  | some key =>
    rw [Option.elim_some, fillKey]
    split <;> rfl

/-- What was filled once is not filled with anything else. -/
theorem keyUnder_keyUnder (timeoutMs : Nat) :
    keyUnder { h with apiKey := h.keyUnder value, timeoutMs } value = h.keyUnder value := by
  by_cases hk : h.hasKey = true
  · have hkey : h.keyUnder value = h.apiKey := if_pos hk
    rw [hkey]
    exact if_pos hk
  · cases value <;> simp [keyUnder, hk]

end HostedSettings

/-! ## All variables at once -/

namespace Settings

variable (s : Settings) (env : Environment)

theorem withKey_eq (kind : ProviderKind) (name : String) :
    withKey env s (kind, name) =
      s.modifyHosted kind fun h => { h with apiKey := h.keyUnder (env.read name) } := by
  have hkind : ∀ kind, s.modifyHosted kind (fun h => { h with apiKey := h.keyUnder none }) = s := by
    intro kind
    cases kind <;> simp [modifyHosted, HostedSettings.keyUnder]
  unfold withKey
  cases env.read name with
  | none => exact (hkind kind).symm
  | some key => simp only [← HostedSettings.elim_fillKey, Option.elim_some]

theorem withPolicy_eq : withPolicy env s = { s with provider := env.policy?.getD s.provider } := by
  unfold withPolicy Environment.policy?
  cases env.read "NAMER_PROVIDER" with
  | none => rfl
  | some v => cases hv : ProviderPolicy.read v <;> simp [hv, Except.toOption]

theorem withEndpoint_eq : withEndpoint env s =
    { s with ollama := { s.ollama with endpoint := (env.read "NAMER_OLLAMA_ENDPOINT").getD s.ollama.endpoint } } := by
  unfold withEndpoint
  cases env.read "NAMER_OLLAMA_ENDPOINT" <;> rfl

theorem withModel_eq : withModel env s =
    { s with ollama := { s.ollama with model := (env.read "NAMER_OLLAMA_MODEL").getD s.ollama.model } } := by
  unfold withModel
  cases env.read "NAMER_OLLAMA_MODEL" <;> rfl

theorem withHttpTimeout_eq : withHttpTimeout env s =
    { s with
      openai := { s.openai with timeoutMs := env.httpTimeout?.getD s.openai.timeoutMs }
      anthropic := { s.anthropic with timeoutMs := env.httpTimeout?.getD s.anthropic.timeoutMs }
      gemini := { s.gemini with timeoutMs := env.httpTimeout?.getD s.gemini.timeoutMs }
      ollama := { s.ollama with timeoutMs := env.httpTimeout?.getD s.ollama.timeoutMs } } := by
  unfold withHttpTimeout Environment.httpTimeout?
  split
  · next ms hms => simp [hms, setHttpTimeout]
  · next hms => simp [hms]

/-- What the settings of a hosted backend become when `name` is the variable of its key. -/
def hostedUnder (name : String) (h : HostedSettings) : HostedSettings :=
  { h with apiKey := h.keyUnder (env.read name), timeoutMs := env.httpTimeout?.getD h.timeoutMs }

/-- Settings under the environment, field by field. -/
theorem withEnvironment_eq : s.withEnvironment env =
    { s with
      provider := env.policy?.getD s.provider
      openai := hostedUnder env "OPENAI_API_KEY" s.openai
      anthropic := hostedUnder env "ANTHROPIC_API_KEY" s.anthropic
      gemini := hostedUnder env "GEMINI_API_KEY" s.gemini
      ollama := { s.ollama with
        endpoint := (env.read "NAMER_OLLAMA_ENDPOINT").getD s.ollama.endpoint
        model := (env.read "NAMER_OLLAMA_MODEL").getD s.ollama.model
        timeoutMs := env.httpTimeout?.getD s.ollama.timeoutMs } } := by
  simp only [withEnvironment, keyVariables, List.foldl_cons, List.foldl_nil, withKey_eq, modifyHosted, withPolicy_eq,
    withEndpoint_eq, withModel_eq, withHttpTimeout_eq, hostedUnder]

theorem hostedUnder_hostedUnder (name : String) (h : HostedSettings) :
    hostedUnder env name (hostedUnder env name h) = hostedUnder env name h := by
  simp only [hostedUnder, HostedSettings.keyUnder_keyUnder]
  cases env.httpTimeout? <;> rfl

theorem withEnvironment_withEnvironment : (s.withEnvironment env).withEnvironment env = s.withEnvironment env := by
  have hagain : ∀ {α : Type} (o : Option α) (a : α), o.getD (o.getD a) = o.getD a := by
    intro α o a
    cases o <;> rfl
  simp only [withEnvironment_eq, hostedUnder_hostedUnder, hagain]

theorem apiKey_withEnvironment {kind : ProviderKind} {h : HostedSettings} (hs : s.hosted? kind = some h)
    (hk : h.hasKey = true) : ((s.withEnvironment env).hosted? kind).map (·.apiKey) = some h.apiKey := by
  have hkey : ∀ value, h.keyUnder value = h.apiKey := fun value => if_pos hk
  rw [withEnvironment_eq]
  cases kind <;> cases hs <;> simp [hosted?, hostedUnder, hkey]

end Settings

/-! ## Variables that might as well not be set -/

theorem ProviderPolicy.name_of_read {v : String} {policy : ProviderPolicy} (h : read v = .ok policy)
    (hv : Text.isBlankText v = false) : Text.asciiLowered (Text.trim v) = policy.name := by
  have hword : Text.asciiLowered (Text.trim v) ≠ "" := by
    intro he
    have hnil : (Text.trim v).toList = [] := by simpa [Text.asciiLowered] using congrArg String.toList he
    rw [← Text.isEmpty_trim, String.toList_eq_nil_iff.mp hnil] at hv
    exact absurd hv (by decide)
  have hlowered : (Text.asciiLowered (Text.trim v)).toList.map Char.toLower =
      (Text.asciiLowered (Text.trim v)).toList := by
    simp [Text.asciiLowered, Char.toLower_toLower_eq_toLower]
  unfold read at h
  generalize Text.asciiLowered (Text.trim v) = word at h hword hlowered
  simp only [hword, decide_false, Bool.or_false, decide_eq_true_eq] at h
  split at h
  · next hauto =>
    cases h
    exact hauto
  · split at h
    · next hrules =>
      cases h
      exact hrules
    · split at h
      · next kind hkind =>
        cases h
        have hname := List.find?_some hkind
        have hlower : kind.name.toList.map Char.toLower = kind.name.toList := by cases kind <;> rfl
        rw [Text.eqIgnoringAsciiCase, hlower, hlowered, beq_iff_eq, String.toList_inj] at hname
        exact hname.symm
      · cases h

namespace Environment

/-- The value of a variable that cannot be used: any value that is blank, and what names no policy or no acceptable
limit where one is wanted. -/
inductive Useless (name v : String) : Prop
  | blank (h : ∀ c ∈ v.toList, Text.isBlank c = true)
  | policy (hn : name = "NAMER_PROVIDER")
      (h : ∀ policy : ProviderPolicy, Text.asciiLowered (Text.trim v) ≠ policy.name)
  | timeout (hn : name = "NAMER_HTTP_TIMEOUT_MS")
      (h : ∀ n, 1000 ≤ n → n ≤ 120000 → ¬ Numeral.Writes (Text.trim v) n)

/-- The environment without some variables whose values cannot be used. -/
def Clears (env env' : Environment) : Prop :=
  ∀ name, env' name = env name ∨ env' name = none ∧ ∃ v, env name = some v ∧ Useless name v

variable {env env' : Environment}

/-- Whatever makes no difference between a useless value and none makes none between the two environments. -/
theorem Clears.apply_eq (h : env.Clears env') {α : Type} {name : String} {f : Option String → α}
    (hf : ∀ v, Useless name v → f (some v) = f none) : f (env' name) = f (env name) := by
  obtain he | ⟨hnone, v, hv, huseless⟩ := h name
  · rw [he]
  · rw [hnone, hv, hf v huseless]

theorem Useless.isBlankText {name v : String} (h : Useless name v) (hp : name ≠ "NAMER_PROVIDER")
    (ht : name ≠ "NAMER_HTTP_TIMEOUT_MS") : Text.isBlankText v = true := by
  cases h with
  | blank h => exact List.all_eq_true.mpr h
  | policy hn h => exact absurd hn hp
  | timeout hn h => exact absurd hn ht

theorem Clears.read_eq (h : env.Clears env') {name : String} (hp : name ≠ "NAMER_PROVIDER")
    (ht : name ≠ "NAMER_HTTP_TIMEOUT_MS") : env'.read name = env.read name := by
  rw [Environment.read_eq, Environment.read_eq]
  refine h.apply_eq (f := (Option.filter (!Text.isBlankText ·))) fun v hv => ?_
  simp [hv.isBlankText hp ht]

theorem Clears.policy?_eq (h : env.Clears env') : env'.policy? = env.policy? := by
  simp only [policy?, Environment.read_eq]
  refine h.apply_eq (f := fun o => (o.filter (!Text.isBlankText ·)).bind fun v => (ProviderPolicy.read v).toOption)
    fun v hv => ?_
  cases hb : Text.isBlankText v with
  | true => simp [hb]
  | false =>
    cases hr : ProviderPolicy.read v with
    | error e => simp [hb, hr, Except.toOption]
    | ok policy =>
      have hname := ProviderPolicy.name_of_read hr hb
      cases hv with
      | blank hall => exact absurd (hb.symm.trans (List.all_eq_true.mpr hall)) (by decide)
      | policy _ hno => exact absurd hname (hno policy)
      | timeout hn _ => exact absurd hn (by decide)

theorem Clears.httpTimeout?_eq (h : env.Clears env') : env'.httpTimeout? = env.httpTimeout? := by
  simp only [httpTimeout?, Environment.read_eq]
  refine h.apply_eq (f := fun o => (o.filter (!Text.isBlankText ·)).bind
    (Numeral.readInRange · Settings.minTimeoutMs Settings.maxTimeoutMs)) fun v hv => ?_
  cases hb : Text.isBlankText v with
  | true => simp [hb]
  | false =>
    cases hr : Numeral.readInRange v Settings.minTimeoutMs Settings.maxTimeoutMs with
    | none => simp [hb, hr]
    | some n =>
      obtain ⟨hwrites, hlow, hhigh⟩ := Numeral.writes_of_readInRange hr
      cases hv with
      | blank hall => exact absurd (hb.symm.trans (List.all_eq_true.mpr hall)) (by decide)
      | policy hn _ => exact absurd hn (by decide)
      | timeout _ hno => exact absurd hwrites (hno n hlow hhigh)

end Environment

namespace Settings

theorem withEnvironment_of_clears {env env' : Environment} (h : env.Clears env') (s : Settings) :
    s.withEnvironment env' = s.withEnvironment env := by
  have hread : ∀ name, name ≠ "NAMER_PROVIDER" → name ≠ "NAMER_HTTP_TIMEOUT_MS" → env'.read name = env.read name :=
    fun name => h.read_eq
  simp only [withEnvironment_eq, hostedUnder, h.policy?_eq, h.httpTimeout?_eq,
    hread "OPENAI_API_KEY" (by decide) (by decide), hread "ANTHROPIC_API_KEY" (by decide) (by decide),
    hread "GEMINI_API_KEY" (by decide) (by decide), hread "NAMER_OLLAMA_ENDPOINT" (by decide) (by decide),
    hread "NAMER_OLLAMA_MODEL" (by decide) (by decide)]

/-- Putting the environment over settings once is enough.  It replaces no key that is not blank, and changes at most the
keys, the policy, the address and the model of the local server and the limits for questions over the network.
Variables whose values cannot be used have the effect of variables that are not set. -/
theorem withEnvironment_once (s : Settings) (env : Environment) :
    (s.withEnvironment env).withEnvironment env = s.withEnvironment env ∧
    (∀ kind h, s.hosted? kind = some h → (∃ c ∈ h.apiKey.toList, Text.isBlank c = false) →
      ((s.withEnvironment env).hosted? kind).map (·.apiKey) = some h.apiKey) ∧
    (∃ (provider : ProviderPolicy) (key : ProviderKind → String) (ms : ProviderKind → Nat) (endpoint model : String),
      s.withEnvironment env =
        { s with
          provider
          openai := { s.openai with apiKey := key .openai, timeoutMs := ms .openai }
          anthropic := { s.anthropic with apiKey := key .anthropic, timeoutMs := ms .anthropic }
          gemini := { s.gemini with apiKey := key .gemini, timeoutMs := ms .gemini }
          ollama := { s.ollama with endpoint, model, timeoutMs := ms .ollama } }) ∧
    ∀ env', env.Clears env' → s.withEnvironment env' = s.withEnvironment env := by
  refine ⟨withEnvironment_withEnvironment s env, ?_, ?_, fun env' h => withEnvironment_of_clears h s⟩
  · intro kind h hs hk
    exact apiKey_withEnvironment s env hs (h.hasKey_iff.mpr hk)
  · let t := s.withEnvironment env
    refine ⟨t.provider, fun kind => ((t.hosted? kind).map (·.apiKey)).getD "",
      fun kind => ((t.hosted? kind).map (·.timeoutMs)).getD t.ollama.timeoutMs, t.ollama.endpoint, t.ollama.model, ?_⟩
    simp only [t, hosted?, withEnvironment_eq, hostedUnder, Option.map_some, Option.map_none, Option.getD_some,
      Option.getD_none]

/-- A key of blanks is filled and another one kept, while blanks, an unknown policy and a limit that comes to 1500 only
in a word of 64 bits are passed over. -/
theorem withEnvironment_once_of_useless :
    let s : Settings := { openai := { apiKey := "  " }, anthropic := { apiKey := " k" } }
    let env' : Environment := fun name =>
      if name = "OPENAI_API_KEY" then some "from env" else if name = "ANTHROPIC_API_KEY" then some "other" else none
    let env : Environment := fun name =>
      if name = "GEMINI_API_KEY" then some " \t"
      else if name = "NAMER_PROVIDER" then some "bard"
      else if name = "NAMER_HTTP_TIMEOUT_MS" then some "+18446744073709553116"
      else env' name
    let filled : Settings := { s with openai := { s.openai with apiKey := "from env" } }
    s.withEnvironment env = filled ∧ filled.withEnvironment env = filled ∧
      s.hosted? .anthropic = some s.anthropic ∧ (∃ c ∈ s.anthropic.apiKey.toList, Text.isBlank c = false) ∧
      ((s.withEnvironment env).hosted? .anthropic).map (·.apiKey) = some " k" ∧
      env.Clears env' ∧ s.withEnvironment env' = s.withEnvironment env := by
  intro s env' env filled
  have hfilled : s.withEnvironment env = filled := by decide +kernel
  have hkey : ∃ c ∈ s.anthropic.apiKey.toList, Text.isBlank c = false :=
    s.anthropic.hasKey_iff.mp (by decide +kernel)
  have hclears : env.Clears env' := by
    intro name
    by_cases hgemini : name = "GEMINI_API_KEY"
    · subst hgemini
      exact .inr ⟨rfl, " \t", rfl, .blank (List.all_eq_true.mp (by decide))⟩
    by_cases hpolicy : name = "NAMER_PROVIDER"
    · subst hpolicy
      refine .inr ⟨rfl, "bard", rfl, .policy rfl ?_⟩
      intro policy
      cases policy with
      | single kind => cases kind <;> decide
      | _ => decide
    by_cases htimeout : name = "NAMER_HTTP_TIMEOUT_MS"
    · subst htimeout
      refine .inr ⟨rfl, _, rfl, .timeout rfl ?_⟩
      intro n _ hn hwrites
      have hread : Numeral.read (Text.trim "+18446744073709553116") = some 18446744073709553116 := by decide +kernel
      have := Option.some.inj ((Numeral.read_eq_some_iff.mpr hwrites).symm.trans hread)
      omega
    · exact .inl (by simp only [env, if_neg hgemini, if_neg hpolicy, if_neg htimeout])
  obtain ⟨hagain, hkept, -, hcleared⟩ := withEnvironment_once s env
  rw [hfilled] at hagain
  exact ⟨hfilled, hagain, rfl, hkey, hkept .anthropic _ rfl hkey, hclears, hcleared env' hclears⟩

end Settings

end NameAdvisor
