import NameAdvisor.Proofs.Json.Record
import NameAdvisor.Settings.Codec

/-!
# Reading settings

Settings are read back from every tidy value that carries what they are written as.
-/

namespace NameAdvisor

open Json

theorem ProviderKind.ofName?_name (kind : ProviderKind) : ofName? kind.name = some kind := by
  cases kind <;> decide +kernel

/-- The names of policies have no blanks around them and no capitals. -/
theorem ProviderPolicy.asciiLowered_trim_name (p : ProviderPolicy) : Text.asciiLowered (Text.trim p.name) = p.name := by
  cases p with
  | auto => decide +kernel
  | rules => decide +kernel
  | single kind => cases kind <;> decide +kernel

theorem ProviderPolicy.read_name (p : ProviderPolicy) : read p.name = .ok p := by
  unfold read
  rw [asciiLowered_trim_name]
  cases p with
  | auto => rfl
  | rules => simp [name]
  | single kind =>
    have hne : kind.name ≠ "auto" ∧ kind.name ≠ "rules" ∧ kind.name ≠ "" := by cases kind <;> decide
    simp [name, hne, ProviderKind.ofName?_name]

theorem ProviderPolicy.decode_toJson (p : ProviderPolicy) : decode p.toJson = .ok p := by
  rw [decode, toJson, Decoder.text, read_name]
  rfl

namespace AssistantSettings

theorem decode_of_carries {a : AssistantSettings} {j : Json} (hj : Tidy j) (h : Carries j a.toJson)
    (ht : a.timeoutMs < Nat.pow 2 64) (hp : a.probeTimeoutMs < Nat.pow 2 64) : decode j = .ok a := by
  obtain ⟨members, rfl, hm⟩ := h.exists_holds "program" rfl rfl
  have h₁ : Members.find? "program" members = some (.string a.program) := hm rfl rfl
  have h₂ : Members.find? "timeoutMs" members = some (.nat a.timeoutMs) := hm rfl rfl
  have h₃ : Members.find? "probeTimeoutMs" members = some (.nat a.probeTimeoutMs) := hm rfl rfl
  have hword := Decoder.word_nat ht
  have hword' := Decoder.word_nat hp
  have hchecks : ∀ f ∈ fields, ∀ v, Members.find? f.name members = some v → f.check v = .ok () := by
    simp [fields, Field.of, h₁, h₂, h₃, hword, hword', Decoder.string, Except.map]
  simp [decode, Record.ofJson_object hj _ hchecks, Record.field, h₁, h₂, h₃, hword, hword', Decoder.string, bind,
    Except.bind, pure, Except.pure]

end AssistantSettings

namespace HostedSettings

theorem decode_of_carries {a : HostedSettings} {j : Json} (hj : Tidy j) (h : Carries j a.toJson)
    (ht : a.timeoutMs < Nat.pow 2 64) : decode j = .ok a := by
  obtain ⟨members, rfl, hm⟩ := h.exists_holds "apiKey" rfl rfl
  have h₁ : Members.find? "apiKey" members = some (.string a.apiKey) := hm rfl rfl
  have h₂ : Members.find? "model" members = some (.string a.model) := hm rfl rfl
  have h₃ : Members.find? "baseUrl" members = some (.string a.baseUrl) := hm rfl rfl
  have h₄ : Members.find? "timeoutMs" members = some (.nat a.timeoutMs) := hm rfl rfl
  have hword := Decoder.word_nat ht
  have hchecks : ∀ f ∈ fields, ∀ v, Members.find? f.name members = some v → f.check v = .ok () := by
    simp [fields, Field.of, h₁, h₂, h₃, h₄, hword, Decoder.string, Except.map]
  simp [decode, Record.ofJson_object hj _ hchecks, Record.field, h₁, h₂, h₃, h₄, hword, Decoder.string, bind,
    Except.bind, pure, Except.pure]

end HostedSettings

namespace ServerSettings

theorem decode_of_carries {a : ServerSettings} {j : Json} (hj : Tidy j) (h : Carries j a.toJson)
    (ht : a.timeoutMs < Nat.pow 2 64) (hp : a.probeTimeoutMs < Nat.pow 2 64) : decode j = .ok a := by
  obtain ⟨members, rfl, hm⟩ := h.exists_holds "endpoint" rfl rfl
  have h₁ : Members.find? "endpoint" members = some (.string a.endpoint) := hm rfl rfl
  have h₂ : Members.find? "model" members = some (.string a.model) := hm rfl rfl
  have h₃ : Members.find? "timeoutMs" members = some (.nat a.timeoutMs) := hm rfl rfl
  have h₄ : Members.find? "probeTimeoutMs" members = some (.nat a.probeTimeoutMs) := hm rfl rfl
  have hword := Decoder.word_nat ht
  have hword' := Decoder.word_nat hp
  have hchecks : ∀ f ∈ fields, ∀ v, Members.find? f.name members = some v → f.check v = .ok () := by
    simp [fields, Field.of, h₁, h₂, h₃, h₄, hword, hword', Decoder.string, Except.map]
  simp [decode, Record.ofJson_object hj _ hchecks, Record.field, h₁, h₂, h₃, h₄, hword, hword', Decoder.string, bind,
    Except.bind, pure, Except.pure]

end ServerSettings

namespace Settings

theorem decode_of_carries {s : Settings} {j : Json} (hj : Tidy j) (h : Carries j s.toJson)
    (ht : ∀ t ∈ s.timeouts, t < Nat.pow 2 64) : decode j = .ok s := by
  obtain ⟨members, rfl, hm⟩ := h.exists_holds "provider" rfl rfl
  have hprovider : Members.find? "provider" members = some s.provider.toJson := hm rfl rfl
  have hlook : ∀ {members : Members} {key : String} {v : Json}, Members.find? key members = some v →
      look (.object members) [key] = some v := fun hv => look_cons_eq_some.mpr ⟨_, _, rfl, hv, look_nil _⟩
  obtain ⟨copilot, hcopilot, hc₁⟩ := h.exists_member "copilot" rfl rfl (hlook (Members.find?_cons_self "program" _ _))
  obtain ⟨openai, hopenai, hc₂⟩ := h.exists_member "openai" rfl rfl (hlook (Members.find?_cons_self "apiKey" _ _))
  obtain ⟨anthropic, hanthropic, hc₃⟩ :=
    h.exists_member "anthropic" rfl rfl (hlook (Members.find?_cons_self "apiKey" _ _))
  obtain ⟨gemini, hgemini, hc₄⟩ := h.exists_member "gemini" rfl rfl (hlook (Members.find?_cons_self "apiKey" _ _))
  obtain ⟨ollama, hollama, hc₅⟩ := h.exists_member "ollama" rfl rfl (hlook (Members.find?_cons_self "endpoint" _ _))
  obtain ⟨ht₁, ht₂, ht₃, ht₄, ht₅, ht₆, ht₇⟩ : _ ∧ _ ∧ _ ∧ _ ∧ _ ∧ _ ∧ _ := by simpa [timeouts] using ht
  have hd₁ := AssistantSettings.decode_of_carries (hj.find? hcopilot) hc₁ ht₁ ht₂
  have hd₂ := HostedSettings.decode_of_carries (hj.find? hopenai) hc₂ ht₃
  have hd₃ := HostedSettings.decode_of_carries (hj.find? hanthropic) hc₃ ht₄
  have hd₄ := HostedSettings.decode_of_carries (hj.find? hgemini) hc₄ ht₅
  have hd₅ := ServerSettings.decode_of_carries (hj.find? hollama) hc₅ ht₆ ht₇
  have hchecks : ∀ f ∈ fields, ∀ v, Members.find? f.name members = some v → f.check v = .ok () := by
    simp [fields, Field.of, hprovider, hcopilot, hopenai, hanthropic, hgemini, hollama, hd₁, hd₂, hd₃, hd₄, hd₅,
      ProviderPolicy.decode_toJson, Except.map]
  simp [decode, Record.ofJson_object hj _ hchecks, Record.field, hprovider, hcopilot, hopenai, hanthropic, hgemini,
    hollama, hd₁, hd₂, hd₃, hd₄, hd₅, ProviderPolicy.decode_toJson, bind, Except.bind, pure, Except.pure]

end Settings

end NameAdvisor
