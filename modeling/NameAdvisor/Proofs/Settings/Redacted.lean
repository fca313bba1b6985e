import NameAdvisor.Settings.File

/-!
# Keys are not shown

Two settings look the same with masked keys just if they differ in no more than their keys, each of which is empty in
both or in neither.  So nothing that is shown of settings tells more of a key than that.

## Main definitions

* `Settings.keyless`: settings with all keys taken out.
* `Settings.SameButKeys`: settings that differ at most in the keys that they hold.
-/

namespace NameAdvisor

namespace HostedSettings

def keyless (h : HostedSettings) : HostedSettings :=
  { h with apiKey := "" }

variable {h h' : HostedSettings}

@[simp] theorem keyless_masked (h : HostedSettings) : h.masked.keyless = h.keyless := by
  unfold masked
  split <;> rfl

theorem apiKey_masked (h : HostedSettings) : h.masked.apiKey = if h.apiKey = "" then "" else "***" := by
  by_cases hk : h.apiKey = "" <;> simp [masked, hk]

/-- Settings are made up of their key and of the rest. -/
theorem eq_iff : h = h' ↔ h.keyless = h'.keyless ∧ h.apiKey = h'.apiKey := by
  cases h
  cases h'
  simp only [keyless, mk.injEq, true_and]
  exact and_comm

/-- A mask shows whether there is a key, and nothing else of it. -/
theorem masked_eq_iff : h.masked = h'.masked ↔ h.keyless = h'.keyless ∧ (h.apiKey = "" ↔ h'.apiKey = "") := by
  rw [eq_iff, keyless_masked, keyless_masked, apiKey_masked, apiKey_masked]
  by_cases hk : h.apiKey = "" <;> by_cases hk' : h'.apiKey = "" <;> simp [hk, hk']

@[simp] theorem masked_masked (h : HostedSettings) : h.masked.masked = h.masked := by
  refine masked_eq_iff.mpr ⟨keyless_masked h, ?_⟩
  rw [apiKey_masked]
  by_cases hk : h.apiKey = "" <;> simp [hk]

end HostedSettings

namespace Settings

def keyless (s : Settings) : Settings :=
  { s with openai := s.openai.keyless, anthropic := s.anthropic.keyless, gemini := s.gemini.keyless }

/-- The settings differ at most in their keys, each of which is empty in both or in neither. -/
structure SameButKeys (s s' : Settings) : Prop where
  keyless : s.keyless = s'.keyless
  openai : s.openai.apiKey = "" ↔ s'.openai.apiKey = ""
  anthropic : s.anthropic.apiKey = "" ↔ s'.anthropic.apiKey = ""
  gemini : s.gemini.apiKey = "" ↔ s'.gemini.apiKey = ""

theorem redacted_eq (s : Settings) : s.redacted =
    { s with openai := s.openai.masked, anthropic := s.anthropic.masked, gemini := s.gemini.masked } := rfl

@[simp] theorem keyless_redacted (s : Settings) : s.redacted.keyless = s.keyless := by
  simp [redacted_eq, keyless]

@[simp] theorem redacted_redacted (s : Settings) : s.redacted.redacted = s.redacted := by
  simp [redacted_eq]

/-- Settings that are fit to be shown tell which keys there are, and nothing else of them. -/
theorem redacted_eq_redacted_iff {s s' : Settings} : s.redacted = s'.redacted ↔ s.SameButKeys s' := by
  simp only [redacted_eq, mk.injEq, HostedSettings.masked_eq_iff]
  constructor
  · rintro ⟨hp, hc, ⟨hko, ho⟩, ⟨hka, ha⟩, ⟨hkg, hg⟩, hs⟩
    exact ⟨by simp [keyless, hp, hc, hko, hka, hkg, hs], ho, ha, hg⟩
  · rintro ⟨hk, ho, ha, hg⟩
    simp only [keyless, mk.injEq] at hk
    obtain ⟨hp, hc, hko, hka, hkg, hs⟩ := hk
    exact ⟨hp, hc, ⟨hko, ho⟩, ⟨hka, ha⟩, ⟨hkg, hg⟩, hs⟩

end Settings

namespace LoadedSettings

open Settings

/-- Settings of one source that differ at most in the keys that they hold are shown with the same text.  Masking the keys
leaves all else as it is, and masking them again changes nothing. -/
theorem render_hides_keys :
    (∀ l l' : LoadedSettings, l.source = l'.source → l.settings.SameButKeys l'.settings → l.render = l'.render) ∧
      ∀ s : Settings, s.redacted.keyless = s.keyless ∧ s.redacted.redacted = s.redacted := by
  refine ⟨fun l l' hsource h => ?_, fun s => ⟨keyless_redacted s, redacted_redacted s⟩⟩
  rw [render, render, hsource, redacted_eq_redacted_iff.mpr h]

/-- A key that looks like further settings, one that is the mask, and a blank one are all shown alike; only the empty key
is shown as it is. -/
theorem render_hides_keys_of_tricky_keys :
    let s : Settings := { openai := { apiKey := "\", \"model\": \"x" }, anthropic := { apiKey := "***" } }
    let s' : Settings := { openai := { apiKey := "***" }, anthropic := { apiKey := " " } }
    s.SameButKeys s' ∧ s ≠ s' ∧ s.redacted.gemini.apiKey = "" ∧
      LoadedSettings.render ⟨s, some ⟨"a.json"⟩⟩ = LoadedSettings.render ⟨s', some ⟨"a.json"⟩⟩ := by
  intro s s'
  have h : s.SameButKeys s' := ⟨by decide, by decide, by decide, by decide⟩
  exact ⟨h, by decide, by decide, render_hides_keys.1 ⟨s, some ⟨"a.json"⟩⟩ ⟨s', some ⟨"a.json"⟩⟩ rfl h⟩

end LoadedSettings

end NameAdvisor
