import NameAdvisor.Proofs.Settings.Environment
import NameAdvisor.Proofs.Settings.Operations
import NameAdvisor.Proofs.Settings.Redacted

/-!
# What a mask tells

Settings are shown with a mask for each key that is not empty, while a backend takes only a key that is not blank.  So
the masks tell which backends are available, except for keys made of blanks: a mask is shown for them too.  Such a key
comes from a settings file, and stays if the environment has no other.

## Main definitions

* `Text.IsBlanks`: texts of blanks, of which there is at least one.
* `LoadedSettings.ShowsKey`: what stands for a key where settings are shown.
-/

namespace NameAdvisor

/-- The text is made of blanks, of which there is at least one. -/
structure Text.IsBlanks (s : String) : Prop where
  ne_empty : s ≠ ""
  isBlank : ∀ c ∈ s.toList, isBlank c = true

theorem Text.isBlanks_iff {s : String} : IsBlanks s ↔ s ≠ "" ∧ isBlankText s = true := by
  rw [isBlankText, List.all_eq_true]
  exact ⟨fun h => ⟨h.ne_empty, h.isBlank⟩, fun h => ⟨h.1, h.2⟩⟩

/-! ## Keys and masks -/

namespace HostedSettings

variable {h : HostedSettings}

theorem apiKey_ne_of_hasKey (hk : h.hasKey = true) : h.apiKey ≠ "" := by
  rintro he
  rw [hasKey_eq, he] at hk
  exact absurd hk (by decide)

theorem isBlanks_apiKey_iff : Text.IsBlanks h.apiKey ↔ h.apiKey ≠ "" ∧ h.hasKey = false := by
  rw [Text.isBlanks_iff, hasKey_eq, Bool.not_eq_false']

/-- A mask is a key. -/
theorem hasKey_masked_iff : h.masked.hasKey = true ↔ h.apiKey ≠ "" := by
  rw [hasKey_eq, apiKey_masked]
  by_cases hk : h.apiKey = ""
  · simp [hk, Text.isBlankText]
  · rw [if_neg hk]
    exact iff_of_true (by decide) hk

/-- Where the environment may fill a gap, blanks stay if it has none but blanks either. -/
theorem isBlanks_keyUnder_iff {env : Environment} {name : String} :
    Text.IsBlanks (h.keyUnder (env.read name)) ↔
      Text.IsBlanks h.apiKey ∧ Text.isBlankText ((env name).getD "") = true := by
  cases hk : h.hasKey with
  | true => simp [keyUnder, hk, isBlanks_apiKey_iff]
  | false =>
    have hkey : h.keyUnder (env.read name) = ((env name).filter (!Text.isBlankText ·)).getD h.apiKey := by
      rw [Environment.read_eq]
      exact if_neg (by simp [hk])
    rw [hkey]
    cases env name with
    | none => simp [Text.isBlankText]
    | some v => cases hv : Text.isBlankText v <;> simp [Option.filter, hv, Text.isBlanks_iff]

theorem ne_empty_iff_hasKey : (h.apiKey ≠ "" ↔ h.hasKey = true) ↔ ¬ Text.IsBlanks h.apiKey := by
  rw [isBlanks_apiKey_iff]
  have hne := apiKey_ne_of_hasKey (h := h)
  cases hk : h.hasKey <;> simp_all

end HostedSettings

namespace Settings

variable {s : Settings} {kind : ProviderKind} {h : HostedSettings}

theorem hosted?_redacted (s : Settings) (kind : ProviderKind) :
    s.redacted.hosted? kind = (s.hosted? kind).map HostedSettings.masked := by
  cases kind <;> rfl

theorem timeouts_redacted (s : Settings) : s.redacted.timeouts = s.timeouts := by
  have hkeyless : ∀ s : Settings, s.keyless.timeouts = s.timeouts := fun _ => rfl
  rw [← hkeyless, keyless_redacted, hkeyless]

theorem look_apiKey_toJson (s : Settings) (kind : ProviderKind) :
    Json.look s.toJson [kind.name, "apiKey"] = (s.hosted? kind).map fun h => .string h.apiKey := by
  cases kind <;>
    simp [toJson, hosted?, ProviderKind.name, Json.look, Json.Members.find?_cons, AssistantSettings.toJson,
      HostedSettings.toJson, ServerSettings.toJson]

/-- A hosted backend is available if there is a key for it. -/
theorem probe_ofSettings (hs : s.hosted? kind = some h) (around : Surroundings) :
    (NameSource.probe (Backend.ofSettings s around kind)).1 = h.hasKey := by
  obtain ⟨api, -, -, hback⟩ := HostedApi.exists_ofSettings hs around
  have hprobe : ∀ backend : Hosted, (NameSource.probe (Backend.hosted backend)).1 = backend.key.isSome := fun _ => rfl
  rw [hback, hprobe, Hosted.ofSettings, ApiKey.ofSetting?_eq, HostedSettings.hasKey_eq]
  cases Text.isBlankText h.apiKey <;> rfl

end Settings

/-! ## What is shown -/

namespace LoadedSettings

variable {l : LoadedSettings} {kind : ProviderKind} {h : HostedSettings} {key : String}

/-- What comes before the JSON in the text that shows settings. -/
def heading (l : LoadedSettings) : String :=
  "source: " ++ (l.source.map (·.text)).getD "built-in defaults" ++ "\n"

/-- The text that shows settings has `key` for the key of the backend: so it is read in the JSON behind the heading. -/
def ShowsKey (l : LoadedSettings) (kind : ProviderKind) (key : String) : Prop :=
  ∃ body j, l.render = l.heading ++ body ∧ Json.parse body = .ok j ∧
    Json.look j [kind.name, "apiKey"] = some (.string key)

theorem render_eq (l : LoadedSettings) : l.render = l.heading ++ l.settings.redacted.fileText := by
  unfold render heading Settings.fileText
  cases l.source <;> simp only [Option.map_none, Option.map_some, Option.getD_none, Option.getD_some, String.append_assoc]

theorem showsKey_iff (hw : l.settings.FitsWords) :
    l.ShowsKey kind key ↔ ∃ h, l.settings.hosted? kind = some h ∧ h.masked.apiKey = key := by
  have hfits : l.settings.redacted.FitsWords := by rwa [Settings.FitsWords, Settings.timeouts_redacted]
  have hparse : Json.parse l.settings.redacted.fileText = .ok l.settings.redacted.toJson :=
    Json.parse_pretty_append (Settings.readable_toJson hfits)
  have hlook : Json.look l.settings.redacted.toJson [kind.name, "apiKey"] =
      (l.settings.hosted? kind).map fun h => .string h.masked.apiKey := by
    rw [Settings.look_apiKey_toJson, Settings.hosted?_redacted, Option.map_map]
    rfl
  constructor
  · rintro ⟨body, j, hrender, hj, hkey⟩
    obtain rfl : l.settings.redacted.fileText = body := by
      rw [render_eq, ← String.toList_inj, String.toList_append, String.toList_append] at hrender
      exact String.toList_inj.mp (List.append_cancel_left hrender)
    obtain rfl := Except.ok.inj (hparse.symm.trans hj)
    rw [hlook] at hkey
    obtain ⟨h, hs, hm⟩ := Option.map_eq_some_iff.mp hkey
    exact ⟨h, hs, Json.string.inj hm⟩
  · rintro ⟨h, hs, rfl⟩
    exact ⟨_, _, l.render_eq, hparse, by rw [hlook, hs]; rfl⟩

/-- A mask is shown for each key that is not empty. -/
theorem showsKey_mask_iff (hw : l.settings.FitsWords) (hs : l.settings.hosted? kind = some h) :
    l.ShowsKey kind "***" ↔ h.apiKey ≠ "" := by
  rw [showsKey_iff hw]
  simp only [hs, Option.some.injEq, exists_eq_left', HostedSettings.apiKey_masked]
  by_cases hk : h.apiKey = "" <;> simp [hk]

/-- Whether settings hold a key for a backend is the same after masking, and a mask is shown just where a backend is
available, exactly if the key is not made of blanks.  Where a backend is available a mask is always shown. -/
theorem mask_tells_backend_iff (hs : l.settings.hosted? kind = some h) (around : Surroundings) :
    (∃ r, l.settings.redacted.hosted? kind = some r ∧
      ((r.hasKey = true ↔ h.hasKey = true) ↔ ¬ Text.IsBlanks h.apiKey)) ∧
    (l.settings.FitsWords →
      ((l.ShowsKey kind "***" ↔ (NameSource.probe (Backend.ofSettings l.settings around kind)).1 = true) ↔
        ¬ Text.IsBlanks h.apiKey) ∧
      ((NameSource.probe (Backend.ofSettings l.settings around kind)).1 = true → l.ShowsKey kind "***")) := by
  refine ⟨⟨h.masked, ?_, ?_⟩, fun hw => ?_⟩
  · rw [Settings.hosted?_redacted, hs, Option.map_some]
  · rw [HostedSettings.hasKey_masked_iff, HostedSettings.ne_empty_iff_hasKey]
  · rw [showsKey_mask_iff hw hs, Settings.probe_ofSettings hs]
    exact ⟨HostedSettings.ne_empty_iff_hasKey, HostedSettings.apiKey_ne_of_hasKey⟩

/-- A key between blanks is shown as a mask and its backend is available.  A wide blank is shown as a mask as well, but
its backend is not. -/
theorem mask_tells_backend_of_padded_key :
    let s : Settings := { openai := { apiKey := "\u3000" }, gemini := { apiKey := " k\n" } }
    let l : LoadedSettings := ⟨s, some ⟨"ai.json"⟩⟩
    let available := fun kind => (NameSource.probe (Backend.ofSettings s {} kind)).1 = true
    s.hosted? .openai = some s.openai ∧ s.hosted? .gemini = some s.gemini ∧ s.FitsWords ∧
      ¬ Text.IsBlanks s.gemini.apiKey ∧ (l.ShowsKey .gemini "***" ↔ available .gemini) ∧
      Text.IsBlanks s.openai.apiKey ∧ ¬ (l.ShowsKey .openai "***" ↔ available .openai) := by
  intro s l available
  have hw : s.FitsWords := by
    unfold Settings.FitsWords
    decide +kernel
  have hkey : ¬ Text.IsBlanks s.gemini.apiKey := fun h => absurd (h.isBlank 'k' (by decide)) (by decide)
  have hblanks : Text.IsBlanks s.openai.apiKey := ⟨by decide, List.all_eq_true.mp (by decide)⟩
  have hopenai : s.hosted? .openai = some s.openai := rfl
  have hgemini : s.hosted? .gemini = some s.gemini := rfl
  have hshown := ((mask_tells_backend_iff (l := l) hgemini {}).2 hw).1
  have hshown' := ((mask_tells_backend_iff (l := l) hopenai {}).2 hw).1
  exact ⟨hopenai, hgemini, hw, hkey, hshown.mpr hkey, hblanks, fun h => hshown'.mp h hblanks⟩

/-- A key of one blank is none, but masked settings hold a key. -/
theorem blank_becomes_key_when_masked :
    let s : Settings := { openai := { apiKey := " " } }
    (s.hosted? .openai).map (·.hasKey) = some false ∧ (s.redacted.hosted? .openai).map (·.hasKey) = some true ∧
      (s.redacted.hosted? .openai).map (·.apiKey) = some "***" ∧
      (NameSource.probe (Backend.ofSettings s {} .openai)).1 = false := by
  decide +kernel

end LoadedSettings

/-! ## Settings that are loaded -/

namespace Settings

/-- A mask is shown without a backend just for the keys of blanks in the file that is used, where the environment has no
key either. -/
theorem mask_without_backend_iff {fs : FileSystem} {candidates : List Path} {found : Option (Path × Settings)}
    (hf : FirstOf fs candidates found) {kind : ProviderKind} {name : String} (hv : (kind, name) ∈ keyVariables)
    (env : Environment) (around : Surroundings) :
    ∃ file, (found.elim ({} : Settings) (·.2)).hosted? kind = some file ∧
      ((load fs candidates env).ShowsKey kind "***" ∧
          (NameSource.probe (Backend.ofSettings (load fs candidates env).settings around kind)).1 = false ↔
        Text.IsBlanks file.apiKey ∧ Text.isBlankText ((env name).getD "") = true) := by
  obtain ⟨file, h, hfile, hloaded, hkey, -⟩ := exists_hosted?_withEnvironment (found.elim {} (·.2)) env kind hv
  have hs : (load fs candidates env).settings.hosted? kind = some h := by
    simp only [load, hf.firstUsable_eq]
    exact hloaded
  have hw : (load fs candidates env).settings.FitsWords := (acceptable_load fs candidates env).fitsWords
  refine ⟨file, hfile, ?_⟩
  rw [HostedSettings.elim_fillKey] at hkey
  rw [LoadedSettings.showsKey_mask_iff hw hs, probe_ofSettings hs, ← HostedSettings.isBlanks_apiKey_iff, hkey,
    HostedSettings.isBlanks_keyUnder_iff]

end Settings

end NameAdvisor
