import NameAdvisor.CommandLine.Session
import NameAdvisor.Proofs.Json.Record

/-!
# Where settings come from

The first candidate that is there and yields settings decides; those before it that fail and those after it have no
influence.  The policy of a run is the one it was asked for, else that of the environment, else what that candidate
says, else to use rules only.

## Main definitions

* `Settings.Broken`: files that yield no settings.
* `Settings.FirstOf`: the first candidate that yields settings.
* `Environment.policy?`, `Settings.filePolicy?`: the policy that the environment or a file names.
-/

namespace NameAdvisor

open Json

/-! ## The policy in a file -/

namespace Settings

/-- What a value that is laid over the default settings says of the policy, if it says something: a member that is
not null, or the first item of a list. -/
def policyMember? : Json → Option Json
  | .object members => (Members.find? "provider" members).filter (!·.isNull)
  | .array items => items.head?
  | _ => none

/-- The policy that a file names, if it names one. -/
def filePolicy? (fs : FileSystem) (p : Path) : Option (Except Mismatch ProviderPolicy) :=
  match fs.readText p with
  | .ok text =>
    match parseCanonical text with
    | .ok layer => (policyMember? layer).map ProviderPolicy.decode
    | .error _ => none
  | .error _ => none

theorem find?_defaultJson : ∃ members, defaultJson = .object members ∧
    Members.find? "provider" members = some (.string "rules") :=
  ⟨_, rfl, rfl⟩

theorem exists_record_of_decode {j : Json} {s : Settings} (h : decode j = .ok s) :
    ∃ r, Record.ofJson "struct AiSettings" fields j = .ok r ∧
      r.field "provider" ProviderPolicy.decode .rules = .ok s.provider := by
  unfold decode at h
  obtain ⟨r, hr, h⟩ := bind_eq_ok_iff.mp h
  obtain ⟨provider, hp, h⟩ := bind_eq_ok_iff.mp h
  obtain ⟨copilot, _, h⟩ := bind_eq_ok_iff.mp h
  obtain ⟨openai, _, h⟩ := bind_eq_ok_iff.mp h
  obtain ⟨anthropic, _, h⟩ := bind_eq_ok_iff.mp h
  obtain ⟨gemini, _, h⟩ := bind_eq_ok_iff.mp h
  obtain ⟨ollama, _, h⟩ := bind_eq_ok_iff.mp h
  cases h
  exact ⟨r, hr, hp⟩

/-- The policy of settings is the one that was laid over the defaults, and to use rules only if none was. -/
theorem provider_of_decode_overlay {layer : Json} (ht : Tidy layer) {s : Settings}
    (h : decode (overlay defaultJson layer) = .ok s) :
    ((policyMember? layer).map ProviderPolicy.decode).getD (.ok .rules) = .ok s.provider := by
  obtain ⟨r, hr, hp⟩ := exists_record_of_decode h
  obtain ⟨base, hbase, hrules⟩ := find?_defaultJson
  rw [← hp, Record.field]
  cases layer with
  | object members =>
    rw [hbase, overlay] at hr
    obtain ⟨ho, -⟩ := throughout_object_iff.mp ht
    rw [Record.given_of_ofJson_object hr, policyMember?, find?_overlayMembers ho.nodup, hrules]
    cases hm : Members.find? "provider" members with
    | none => rfl
    | some v =>
      cases hv : v.isNull with
      | true =>
        simp only [Option.filter, hv]
        rfl
      | false =>
        have ho : overlay (.string "rules") v = v := by cases v <;> simp [overlay]
        simp [Option.filter, hv, overlaid, ho]
  | array items =>
    have ho : overlay defaultJson (.array items) = .array items := by simp [overlay]
    rw [ho] at hr
    rw [Record.given_of_ofJson_array hr]
    cases items with
    | nil => rfl
    | cons first items => rfl
  | _ => simp [overlay, Record.ofJson] at hr

theorem tidy_of_parseCanonical {text : String} {layer : Json} (h : parseCanonical text = .ok layer) : Tidy layer := by
  unfold parseCanonical at h
  cases hp : parse text with
  | error e => simp [hp, Except.map] at h
  | ok j =>
    simp only [hp, Except.map, Except.ok.injEq] at h
    exact h ▸ tidy_canonical j

/-! ## Files that yield settings, and files that do not -/

/-- Why a file yields no settings. -/
inductive Broken (fs : FileSystem) (p : Path) : Prop
  | directory (h : fs.isDirectory p = true)
  | unreadable {e : FileSystem.Error} (h : fs.readBytes p = .error e)
  | notText {bytes : ByteArray} (h : fs.readBytes p = .ok bytes) (hu : Utf8.decode bytes = none)
  | notJson {text : String} {fault : Fault} (h : fs.readText p = .ok text) (hj : parseCanonical text = .error fault)
  | unknownPolicy {text : String} {layer member : Json} {e : Mismatch} (h : fs.readText p = .ok text)
      (hj : parseCanonical text = .ok layer) (hm : policyMember? layer = some member)
      (hp : ProviderPolicy.decode member = .error e)
  | wrongShape {text : String} {layer : Json} {e : Mismatch} (h : fs.readText p = .ok text)
      (hj : parseCanonical text = .ok layer) (hd : decode (overlay defaultJson layer) = .error e)

/-- The settings in a file that is there are those that its text describes. -/
theorem ofFile_eq_ok_iff {fs : FileSystem} {p : Path} (he : fs.exists? p = true) {s : Settings} :
    ofFile fs p = .ok s ↔ ∃ text layer raw, fs.readText p = .ok text ∧ parseCanonical text = .ok layer ∧
      decode (overlay defaultJson layer) = .ok raw ∧ raw.resetTimeouts = s := by
  rw [ofFile, if_pos he]
  cases ht : fs.readText p with
  | error e => simp
  | ok text =>
    simp only [ofText]
    cases hj : parseCanonical text with
    | error e => simp [hj]
    | ok layer =>
      simp only [ofLayer]
      cases hd : decode (overlay defaultJson layer) with
      | error e => simp [hj, hd]
      | ok raw => simp [hj, hd]

theorem readBytes_of_isDirectory {fs : FileSystem} {p : Path} (h : fs.isDirectory p = true) :
    fs.readBytes p = .error .isDirectory := by
  unfold FileSystem.isDirectory FileSystem.lookup at h
  unfold FileSystem.readBytes
  cases hr : fs.resolve p true with
  | error e => simp [hr] at h
  | ok found =>
    obtain ⟨loc, node⟩ := found
    cases node with
    | none => simp [hr] at h
    | some node => cases node <;> simp_all

theorem Broken.ofFile_ne_ok {fs : FileSystem} {p : Path} (h : Broken fs p) (he : fs.exists? p = true) (s : Settings) :
    ofFile fs p ≠ .ok s := by
  intro hs
  obtain ⟨text, layer, raw, ht, hj, hd, -⟩ := (ofFile_eq_ok_iff he).mp hs
  have hnone : ∀ {e}, fs.readBytes p ≠ .error e := by
    intro e hb
    simp [FileSystem.readText, hb] at ht
  cases h with
  | directory h => exact hnone (readBytes_of_isDirectory h)
  | unreadable h => exact hnone h
  | notText h hu => simp [FileSystem.readText, h, hu] at ht
  | notJson h hj' =>
    cases ht.symm.trans h
    cases hj.symm.trans hj'
  | unknownPolicy h hj' hm hp =>
    cases ht.symm.trans h
    cases hj.symm.trans hj'
    have := provider_of_decode_overlay (tidy_of_parseCanonical hj) hd
    simp [hm, hp] at this
  | wrongShape h hj' hd' =>
    cases ht.symm.trans h
    cases hj.symm.trans hj'
    cases hd.symm.trans hd'

theorem ofFile_or_broken {fs : FileSystem} {p : Path} (he : fs.exists? p = true) :
    (∃ s, ofFile fs p = .ok s) ∨ Broken fs p := by
  cases hb : fs.readBytes p with
  | error e => exact .inr (.unreadable hb)
  | ok bytes =>
    cases hu : Utf8.decode bytes with
    | none => exact .inr (.notText hb hu)
    | some text =>
      have ht : fs.readText p = .ok text := by simp [FileSystem.readText, hb, hu]
      cases hj : parseCanonical text with
      | error fault => exact .inr (.notJson ht hj)
      | ok layer =>
        cases hd : decode (overlay defaultJson layer) with
        | error e => exact .inr (.wrongShape ht hj hd)
        | ok raw => exact .inl ⟨_, (ofFile_eq_ok_iff he).mpr ⟨text, layer, raw, ht, hj, hd, rfl⟩⟩

/-! ## The first candidate that yields settings -/

/-- The first of some candidates that yields settings, with these; candidates that are missing or broken are passed
over, and those after it are not looked at. -/
inductive FirstOf (fs : FileSystem) : List Path → Option (Path × Settings) → Prop
  | none : FirstOf fs [] none
  | skip {p : Path} {rest : List Path} {found : Option (Path × Settings)} (h : fs.exists? p = false ∨ Broken fs p)
      (hr : FirstOf fs rest found) : FirstOf fs (p :: rest) found
  | use {p : Path} {rest : List Path} {s : Settings} (he : fs.exists? p = true) (h : ofFile fs p = .ok s) :
      FirstOf fs (p :: rest) (some (p, s))

theorem exists_firstOf (fs : FileSystem) (candidates : List Path) : ∃ found, FirstOf fs candidates found := by
  induction candidates with
  | nil => exact ⟨none, .none⟩
  | cons p rest ih =>
    obtain ⟨found, hr⟩ := ih
    cases he : fs.exists? p with
    | false => exact ⟨found, .skip (.inl he) hr⟩
    | true =>
      obtain ⟨s, hs⟩ | hb := ofFile_or_broken he
      · exact ⟨some (p, s), .use he hs⟩
      · exact ⟨found, .skip (.inr hb) hr⟩

theorem FirstOf.firstUsable_eq {fs : FileSystem} {candidates : List Path} {found : Option (Path × Settings)}
    (h : FirstOf fs candidates found) :
    firstUsable fs candidates = ⟨found.elim {} (·.2), found.map (·.1)⟩ := by
  induction h with
  | none => rfl
  | @skip p rest found h hr ih =>
    rw [firstUsable]
    split
    · next he =>
      have hb : Broken fs p := h.resolve_left (by simp [he])
      cases ho : ofFile fs p with
      | error e => exact ih
      | ok s => exact absurd ho (hb.ofFile_ne_ok he s)
    · exact ih
  | use he h => simp [firstUsable, he, h]

/-- What the first candidate that yields settings says of the policy is the policy that they have. -/
theorem FirstOf.provider_eq {fs : FileSystem} {candidates : List Path} {found : Option (Path × Settings)}
    (h : FirstOf fs candidates found) :
    (found.bind (filePolicy? fs ·.1)).getD (.ok .rules) = .ok (found.elim ({} : Settings) (·.2)).provider := by
  induction h with
  | none => rfl
  | skip _ _ ih => exact ih
  | @use p rest s he h =>
    obtain ⟨text, layer, raw, ht, hj, hd, rfl⟩ := (ofFile_eq_ok_iff he).mp h
    have hp : raw.resetTimeouts.provider = raw.provider := rfl
    simpa [filePolicy?, ht, hj, hp] using provider_of_decode_overlay (tidy_of_parseCanonical hj) hd

end Settings

/-! ## The environment -/

/-- The policy that the environment names, if it names one. -/
def Environment.policy? (env : Environment) : Option ProviderPolicy :=
  (env.read "NAMER_PROVIDER").bind fun v => (ProviderPolicy.read v).toOption

namespace Settings

theorem provider_modifyHosted (s : Settings) (kind : ProviderKind) (f : HostedSettings → HostedSettings) :
    (s.modifyHosted kind f).provider = s.provider := by
  cases kind <;> rfl

theorem provider_withKey (env : Environment) (s : Settings) (variableOf : ProviderKind × String) :
    (withKey env s variableOf).provider = s.provider := by
  obtain ⟨kind, name⟩ := variableOf
  unfold withKey
  split
  · exact provider_modifyHosted s kind _
  · rfl

theorem provider_withEndpoint (env : Environment) (s : Settings) : (withEndpoint env s).provider = s.provider := by
  unfold withEndpoint
  split <;> rfl

theorem provider_withModel (env : Environment) (s : Settings) : (withModel env s).provider = s.provider := by
  unfold withModel
  split <;> rfl

theorem provider_withHttpTimeout (env : Environment) (s : Settings) :
    (withHttpTimeout env s).provider = s.provider := by
  unfold withHttpTimeout
  split <;> rfl

theorem provider_withPolicy (env : Environment) (s : Settings) :
    (withPolicy env s).provider = env.policy?.getD s.provider := by
  unfold withPolicy Environment.policy?
  cases env.read "NAMER_PROVIDER" with
  | none => rfl
  | some v => cases hr : ProviderPolicy.read v <;> simp [hr, Except.toOption]

/-- Of all variables only one has to do with the policy. -/
theorem provider_withEnvironment (s : Settings) (env : Environment) :
    (s.withEnvironment env).provider = env.policy?.getD s.provider := by
  have hkeys : ∀ keys : List (ProviderKind × String), (keys.foldl (withKey env) s).provider = s.provider := by
    intro keys
    induction keys generalizing s with
    | nil => rfl
    | cons key rest ih => rw [List.foldl_cons, ih, provider_withKey]
  simp only [withEnvironment, provider_withHttpTimeout, provider_withModel, provider_withEndpoint,
    provider_withPolicy, hkeys]

/-- Settings are those of the first candidate that yields any, with the environment put over them, and nothing else
about the candidates has an influence.  The policy of a run is the one it was asked for, else that of the environment,
else what the first such candidate says, else to use rules only. -/
theorem load_precedence (w : World) (candidates : List Path) (flag : Option ProviderPolicy) :
    (∃ found, FirstOf w.fileSystem candidates found ∧
      load w.fileSystem candidates w.environment =
        ⟨(found.elim {} (·.2)).withEnvironment w.environment, found.map (·.1)⟩ ∧
      ∀ fs' candidates', FirstOf fs' candidates' found →
        load fs' candidates' w.environment = load w.fileSystem candidates w.environment) ∧
    ∃ found, FirstOf w.fileSystem [World.projectSettings, w.userSettings] found ∧
      Except.ok (w.advisor flag).policy =
        (((flag.or w.environment.policy?).map Except.ok).or (found.bind (filePolicy? w.fileSystem ·.1))).getD
          (.ok .rules) := by
  have hload : ∀ {fs candidates found}, FirstOf fs candidates found → load fs candidates w.environment =
      ⟨(found.elim {} (·.2)).withEnvironment w.environment, found.map (·.1)⟩ := by
    intro fs candidates found h
    simp only [load, h.firstUsable_eq]
  constructor
  · obtain ⟨found, h⟩ := exists_firstOf w.fileSystem candidates
    refine ⟨found, h, hload h, ?_⟩
    intro fs' candidates' h'
    rw [hload h, hload h']
  · obtain ⟨found, h⟩ := exists_firstOf w.fileSystem [World.projectSettings, w.userSettings]
    refine ⟨found, h, ?_⟩
    have hpolicy : (w.advisor flag).policy =
        flag.getD (load w.fileSystem [World.projectSettings, w.userSettings] w.environment).settings.provider := rfl
    rw [hpolicy, hload h, provider_withEnvironment]
    cases flag with
    | some policy => rfl
    | none =>
      cases w.environment.policy? with
      | some policy => rfl
      | none => exact h.provider_eq.symm

/-- A directory and a text that breaks off are passed over. -/
example : load { entries := [(["a"], .directory), (["b"], .file (Utf8.encode "[")),
    (["c"], .file (Utf8.encode "\x7b\"provider\":\"auto\"\x7d"))] } [⟨"a"⟩, ⟨"b"⟩, ⟨"c"⟩, ⟨"d"⟩] (fun _ => none) =
      ⟨{ provider := .auto }, some ⟨"c"⟩⟩ := by
  decide +kernel

end Settings

end NameAdvisor
