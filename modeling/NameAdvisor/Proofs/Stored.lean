import NameAdvisor.FileContext
import NameAdvisor.Proofs.Json.Lossless
import NameAdvisor.Proofs.Settings.File

/-!
# Data that is stored

Each type of data that leaves the program as JSON and comes back is written and read by its own rules: names in kebab
case, members that are left out, defaults of a record or of a field, a text that stands for a policy.  Its values
survive all the same, and whatever was read is written in a normal form.

## Main definitions

* `Stored`: the types of data that are stored.

## Main statements

* `Stored.decode_toJson_normal`: what is written is read back, and what was read is written in a normal form.
-/

namespace NameAdvisor

open Json

/-! ## Enumerations and policies -/

namespace IdentifierKind

theorem name_injective : Function.Injective name := by
  intro a b h
  cases a <;> cases b <;> first | rfl | simp [name] at h

theorem lossless : Lossless (fun _ => True) toJson decode :=
  .enumeration mem_all name_injective

end IdentifierKind

namespace Domain

theorem name_injective : Function.Injective name := by
  intro a b h
  cases a <;> cases b <;> first | rfl | simp [name] at h

theorem lossless : Lossless (fun _ => True) toJson decode :=
  .enumeration mem_all name_injective

end Domain

namespace ProviderKind

theorem name_injective : Function.Injective name := by
  intro a b h
  cases a <;> cases b <;> first | rfl | simp [name] at h

theorem lossless : Lossless (fun _ => True) toJson decode :=
  .enumeration mem_all name_injective

end ProviderKind

theorem ProviderPolicy.lossless : Lossless (fun _ => True) toJson decode :=
  .text read_name

/-! ## Identifiers and their context -/

namespace Identifier

/-- The line, where it is known, is a word of 32 bits. -/
def FitsWords (i : Identifier) : Prop :=
  ∀ n ∈ i.line, n < Nat.pow 2 32

theorem lossless : Lossless FitsWords toJson decode where
  read_write {i} hi := by
    have hs := @Lossless.string.read_write
    have hk := IdentifierKind.lossless.read_write (a := i.kind) trivial
    have hl : Decoder.optional Decoder.halfWord (i.line.elim .null nat) = .ok i.line :=
      (Lossless.halfWord.optional fun _ => by simp [nat]).read_write hi
    obtain ⟨name, kind, sourceContext, line⟩ := i
    cases line with
    | none =>
      have hr : Record.ofJson "struct Identifier" fields (toJson ⟨name, kind, sourceContext, none⟩) =
          .ok ⟨_, _, _, false⟩ :=
        Record.ofJson_object_of_nodup (by simp) _ (by simp [fields, Members.find?_cons, Field.of, hs, hk, Except.map])
      simp [decode, hr, Record.required, Record.field, Members.find?_cons, hs, hk, bind, Except.bind, pure,
        Except.pure]
    | some n =>
      rw [Option.elim_some] at hl
      have hr : Record.ofJson "struct Identifier" fields (toJson ⟨name, kind, sourceContext, some n⟩) =
          .ok ⟨_, _, _, false⟩ :=
        Record.ofJson_object_of_nodup (by simp) _
          (by simp [fields, Members.find?_cons, Field.of, hs, hk, hl, Except.map])
      simp [decode, hr, Record.required, Record.field, Members.find?_cons, hs, hk, hl, bind, Except.bind, pure,
        Except.pure]
  inRange {j i} h := by
    obtain ⟨r, -, h⟩ := bind_eq_ok_iff.mp h
    obtain ⟨name, -, h⟩ := bind_eq_ok_iff.mp h
    obtain ⟨kind, -, h⟩ := bind_eq_ok_iff.mp h
    obtain ⟨sourceContext, -, h⟩ := bind_eq_ok_iff.mp h
    obtain ⟨line, hl, h⟩ := bind_eq_ok_iff.mp h
    cases h
    exact (Lossless.halfWord.optional fun _ => by simp [nat]).inRange_of_field (by simp) hl

theorem readable_toJson {i : Identifier} (h : i.FitsWords) : Readable depthLimit i.toJson := by
  obtain ⟨name, kind, sourceContext, line⟩ := i
  rw [depthLimit_eq]
  cases line with
  | none => simp [toJson, IdentifierKind.toJson]
  | some n =>
    have hn : n < 4294967296 := h n rfl
    have hw : n < wordLimit := Nat.lt_trans hn (by decide)
    simp [toJson, IdentifierKind.toJson, nat, Number.IsWord, hw]

end Identifier

namespace FileContext

theorem lossless : Lossless (fun _ => True) toJson decode where
  read_write {c} _ := by
    have hs := @Lossless.string.read_write
    have hd := Domain.lossless.read_write (a := c.domain) trivial
    have hi : Decoder.list Decoder.string (strings c.imports) = .ok c.imports :=
      Lossless.string.list.read_write fun _ _ => trivial
    have hr : Record.ofJson "struct FileContext" fields c.toJson = .ok ⟨_, _, _, false⟩ :=
      Record.ofJson_object_of_nodup (by simp) _ (by simp [fields, Members.find?_cons, Field.of, hs, hd, hi, Except.map])
    simp [decode, hr, Record.field, Members.find?_cons, hs, hd, hi, bind, Except.bind, pure, Except.pure]
  inRange _ := trivial

theorem readable_toJson (c : FileContext) {depth : Nat} : Readable (depth + 3) c.toJson := by
  simp [toJson, Domain.toJson, strings]

end FileContext

namespace PromptContext

theorem lossless : Lossless (fun _ => True) toJson decode where
  read_write {c} _ := by
    have hs := @Lossless.string.read_write
    have hk := IdentifierKind.lossless.read_write (a := c.kind) trivial
    have hf := FileContext.lossless.read_write (a := c.file) trivial
    have hr : Record.ofJson "struct PromptContext" fields c.toJson = .ok ⟨_, _, _, false⟩ :=
      Record.ofJson_object_of_nodup (by simp) _ (by simp [fields, Members.find?_cons, Field.of, hs, hk, hf, Except.map])
    simp [decode, hr, Record.required, Members.find?_cons, hs, hk, hf, bind, Except.bind, pure, Except.pure]
  inRange _ := trivial

theorem readable_toJson (c : PromptContext) : Readable depthLimit c.toJson := by
  rw [depthLimit_eq]
  simp [toJson, IdentifierKind.toJson, FileContext.readable_toJson c.file]

end PromptContext

/-! ## Settings -/

namespace AssistantSettings

/-- The time limits are words of 64 bits. -/
def FitsWords (a : AssistantSettings) : Prop :=
  a.timeoutMs < Nat.pow 2 64 ∧ a.probeTimeoutMs < Nat.pow 2 64

theorem lossless : Lossless FitsWords toJson decode where
  read_write {a} ha := by
    have hs := @Lossless.string.read_write
    have ht := Lossless.word.read_write ha.1
    have hp := Lossless.word.read_write ha.2
    have hr : Record.ofJson "struct CliAssistantSettings" fields a.toJson = .ok ⟨_, _, _, false⟩ :=
      Record.ofJson_object_of_nodup (by simp) _ (by simp [fields, Members.find?_cons, Field.of, hs, ht, hp, Except.map])
    simp [decode, hr, Record.field, Members.find?_cons, hs, ht, hp, bind, Except.bind, pure, Except.pure]
  inRange {j a} h := by
    obtain ⟨r, -, h⟩ := bind_eq_ok_iff.mp h
    obtain ⟨program, -, h⟩ := bind_eq_ok_iff.mp h
    obtain ⟨timeoutMs, ht, h⟩ := bind_eq_ok_iff.mp h
    obtain ⟨probeTimeoutMs, hp, h⟩ := bind_eq_ok_iff.mp h
    cases h
    have ht := Lossless.word.inRange_of_field (by decide) ht
    have hp := Lossless.word.inRange_of_field (by decide) hp
    exact ⟨ht, hp⟩

theorem readable_toJson {a : AssistantSettings} (h : a.FitsWords) : Readable depthLimit a.toJson := by
  obtain ⟨ht, hp⟩ : a.timeoutMs < wordLimit ∧ a.probeTimeoutMs < wordLimit := h
  rw [depthLimit_eq]
  simp [toJson, nat, Number.IsWord, ht, hp]

end AssistantSettings

namespace HostedSettings

/-- The time limit is a word of 64 bits. -/
def FitsWords (h : HostedSettings) : Prop :=
  h.timeoutMs < Nat.pow 2 64

theorem lossless : Lossless FitsWords toJson decode where
  read_write {a} ha := by
    have hs := @Lossless.string.read_write
    have ht := Lossless.word.read_write ha
    have hr : Record.ofJson "struct HostedProviderSettings" fields a.toJson = .ok ⟨_, _, _, false⟩ :=
      Record.ofJson_object_of_nodup (by simp) _ (by simp [fields, Members.find?_cons, Field.of, hs, ht, Except.map])
    simp [decode, hr, Record.field, Members.find?_cons, hs, ht, bind, Except.bind, pure, Except.pure]
  inRange {j a} h := by
    obtain ⟨r, -, h⟩ := bind_eq_ok_iff.mp h
    obtain ⟨apiKey, -, h⟩ := bind_eq_ok_iff.mp h
    obtain ⟨model, -, h⟩ := bind_eq_ok_iff.mp h
    obtain ⟨baseUrl, -, h⟩ := bind_eq_ok_iff.mp h
    obtain ⟨timeoutMs, ht, h⟩ := bind_eq_ok_iff.mp h
    cases h
    exact Lossless.word.inRange_of_field (by decide) ht

theorem readable_toJson {h : HostedSettings} (hw : h.FitsWords) : Readable depthLimit h.toJson := by
  have ht : h.timeoutMs < wordLimit := hw
  rw [depthLimit_eq]
  simp [toJson, nat, Number.IsWord, ht]

end HostedSettings

namespace ServerSettings

/-- The time limits are words of 64 bits. -/
def FitsWords (s : ServerSettings) : Prop :=
  s.timeoutMs < Nat.pow 2 64 ∧ s.probeTimeoutMs < Nat.pow 2 64

theorem lossless : Lossless FitsWords toJson decode where
  read_write {a} ha := by
    have hs := @Lossless.string.read_write
    have ht := Lossless.word.read_write ha.1
    have hp := Lossless.word.read_write ha.2
    have hr : Record.ofJson "struct LocalServerSettings" fields a.toJson = .ok ⟨_, _, _, false⟩ :=
      Record.ofJson_object_of_nodup (by simp) _ (by simp [fields, Members.find?_cons, Field.of, hs, ht, hp, Except.map])
    simp [decode, hr, Record.field, Members.find?_cons, hs, ht, hp, bind, Except.bind, pure, Except.pure]
  inRange {j a} h := by
    obtain ⟨r, -, h⟩ := bind_eq_ok_iff.mp h
    obtain ⟨endpoint, -, h⟩ := bind_eq_ok_iff.mp h
    obtain ⟨model, -, h⟩ := bind_eq_ok_iff.mp h
    obtain ⟨timeoutMs, ht, h⟩ := bind_eq_ok_iff.mp h
    obtain ⟨probeTimeoutMs, hp, h⟩ := bind_eq_ok_iff.mp h
    cases h
    have ht := Lossless.word.inRange_of_field (by decide) ht
    have hp := Lossless.word.inRange_of_field (by decide) hp
    exact ⟨ht, hp⟩

theorem readable_toJson {s : ServerSettings} (h : s.FitsWords) : Readable depthLimit s.toJson := by
  obtain ⟨ht, hp⟩ : s.timeoutMs < wordLimit ∧ s.probeTimeoutMs < wordLimit := h
  rw [depthLimit_eq]
  simp [toJson, nat, Number.IsWord, ht, hp]

end ServerSettings

namespace Settings

theorem fitsWords_iff {s : Settings} : s.FitsWords ↔ s.copilot.FitsWords ∧ s.openai.FitsWords ∧
    s.anthropic.FitsWords ∧ s.gemini.FitsWords ∧ s.ollama.FitsWords := by
  rw [FitsWords, forall_mem_timeouts]
  simp only [AssistantSettings.FitsWords, HostedSettings.FitsWords, ServerSettings.FitsWords, and_assoc]

theorem lossless : Lossless FitsWords toJson decode where
  read_write {s} hs := by
    obtain ⟨hs₁, hs₂, hs₃, hs₄, hs₅⟩ := fitsWords_iff.mp hs
    have hp := ProviderPolicy.lossless.read_write (a := s.provider) trivial
    have h₁ := AssistantSettings.lossless.read_write hs₁
    have h₂ := HostedSettings.lossless.read_write hs₂
    have h₃ := HostedSettings.lossless.read_write hs₃
    have h₄ := HostedSettings.lossless.read_write hs₄
    have h₅ := ServerSettings.lossless.read_write hs₅
    have hr : Record.ofJson "struct AiSettings" fields s.toJson = .ok ⟨_, _, _, false⟩ :=
      Record.ofJson_object_of_nodup (by simp) _
        (by simp [fields, Members.find?_cons, Field.of, hp, h₁, h₂, h₃, h₄, h₅, Except.map])
    simp [decode, hr, Record.field, Members.find?_cons, hp, h₁, h₂, h₃, h₄, h₅, bind, Except.bind, pure, Except.pure]
  inRange {j s} h := by
    obtain ⟨r, -, h⟩ := bind_eq_ok_iff.mp h
    obtain ⟨provider, -, h⟩ := bind_eq_ok_iff.mp h
    obtain ⟨copilot, h₁, h⟩ := bind_eq_ok_iff.mp h
    obtain ⟨openai, h₂, h⟩ := bind_eq_ok_iff.mp h
    obtain ⟨anthropic, h₃, h⟩ := bind_eq_ok_iff.mp h
    obtain ⟨gemini, h₄, h⟩ := bind_eq_ok_iff.mp h
    obtain ⟨ollama, h₅, h⟩ := bind_eq_ok_iff.mp h
    cases h
    have hd : ({} : Settings).FitsWords := by
      unfold FitsWords
      decide
    obtain ⟨hd₁, hd₂, hd₃, hd₄, hd₅⟩ := fitsWords_iff.mp hd
    have h₁ := AssistantSettings.lossless.inRange_of_field hd₁ h₁
    have h₂ := HostedSettings.lossless.inRange_of_field hd₂ h₂
    have h₃ := HostedSettings.lossless.inRange_of_field hd₃ h₃
    have h₄ := HostedSettings.lossless.inRange_of_field hd₄ h₄
    have h₅ := ServerSettings.lossless.inRange_of_field hd₅ h₅
    exact fitsWords_iff.mpr ⟨h₁, h₂, h₃, h₄, h₅⟩

end Settings

/-! ## All of them -/

/-- The types of data that are stored. -/
inductive Stored where
  | identifier
  | identifierKind
  | domain
  | fileContext
  | promptContext
  | providerKind
  | providerPolicy
  | settings
  | assistantSettings
  | hostedSettings
  | serverSettings
  deriving DecidableEq, Repr

namespace Stored

/-- The data of a type. -/
def Data : Stored → Type
  | .identifier => Identifier
  | .identifierKind => IdentifierKind
  | .domain => Domain
  | .fileContext => FileContext
  | .promptContext => PromptContext
  | .providerKind => ProviderKind
  | .providerPolicy => ProviderPolicy
  | .settings => Settings
  | .assistantSettings => AssistantSettings
  | .hostedSettings => HostedSettings
  | .serverSettings => ServerSettings

def toJson : (t : Stored) → t.Data → Json
  | .identifier => Identifier.toJson
  | .identifierKind => IdentifierKind.toJson
  | .domain => Domain.toJson
  | .fileContext => FileContext.toJson
  | .promptContext => PromptContext.toJson
  | .providerKind => ProviderKind.toJson
  | .providerPolicy => ProviderPolicy.toJson
  | .settings => Settings.toJson
  | .assistantSettings => AssistantSettings.toJson
  | .hostedSettings => HostedSettings.toJson
  | .serverSettings => ServerSettings.toJson

def decode : (t : Stored) → Decoder t.Data
  | .identifier => Identifier.decode
  | .identifierKind => IdentifierKind.decode
  | .domain => Domain.decode
  | .fileContext => FileContext.decode
  | .promptContext => PromptContext.decode
  | .providerKind => ProviderKind.decode
  | .providerPolicy => ProviderPolicy.decode
  | .settings => Settings.decode
  | .assistantSettings => AssistantSettings.decode
  | .hostedSettings => HostedSettings.decode
  | .serverSettings => ServerSettings.decode

/-- The numbers in the data are words of the widths that the type gives them. -/
def FitsWords : (t : Stored) → t.Data → Prop
  | .identifier => Identifier.FitsWords
  | .settings => Settings.FitsWords
  | .assistantSettings => AssistantSettings.FitsWords
  | .hostedSettings => HostedSettings.FitsWords
  | .serverSettings => ServerSettings.FitsWords
  | .identifierKind | .domain | .fileContext | .promptContext | .providerKind | .providerPolicy => fun _ => True

theorem lossless (t : Stored) : Lossless t.FitsWords t.toJson t.decode := by
  cases t with
  | identifier => exact Identifier.lossless
  | identifierKind => exact IdentifierKind.lossless
  | domain => exact Domain.lossless
  | fileContext => exact FileContext.lossless
  | promptContext => exact PromptContext.lossless
  | providerKind => exact ProviderKind.lossless
  | providerPolicy => exact ProviderPolicy.lossless
  | settings => exact Settings.lossless
  | assistantSettings => exact AssistantSettings.lossless
  | hostedSettings => exact HostedSettings.lossless
  | serverSettings => exact ServerSettings.lossless

theorem readable_toJson {t : Stored} {x : t.Data} (h : t.FitsWords x) : Readable depthLimit (t.toJson x) := by
  cases t with
  | identifier => exact Identifier.readable_toJson h
  | fileContext => exact FileContext.readable_toJson x
  | promptContext => exact PromptContext.readable_toJson x
  | settings => exact Settings.readable_toJson h
  | assistantSettings => exact AssistantSettings.readable_toJson h
  | hostedSettings => exact HostedSettings.readable_toJson h
  | serverSettings => exact ServerSettings.readable_toJson h
  | identifierKind => exact .string _
  | domain => exact .string _
  | providerKind => exact .string _
  | providerPolicy => exact .string _

/-- Data of every type is read back from what it is written as, and from its text with line breaks or without.  All
that is ever read, from whatever value, is data of the type, and it stays the same when it is written and read again:
what was read is written in a normal form. -/
theorem decode_toJson_normal (t : Stored) :
    (∀ x : t.Data, t.FitsWords x →
      t.decode (t.toJson x) = .ok x ∧
        parse (t.toJson x).compact = .ok (t.toJson x) ∧ parse ((t.toJson x).pretty ++ "\n") = .ok (t.toJson x)) ∧
      ∀ (v : Json) (x : t.Data), t.decode v = .ok x →
        t.FitsWords x ∧ t.decode (t.toJson x) = .ok x ∧ (t.decode (t.toJson x)).map t.toJson = .ok (t.toJson x) := by
  refine ⟨fun x hx => ⟨t.lossless.read_write hx, ?_, ?_⟩, fun v x hv => ⟨t.lossless.inRange hv, ?_, ?_⟩⟩
  · exact parse_compact (readable_toJson hx)
  · exact parse_pretty_append (readable_toJson hx)
  · exact t.lossless.read_write_of_read hv
  · rw [t.lossless.read_write_of_read hv, Except.map]

/-- An array that stops before its last field, and an object with few members of which one is unknown and one names a
policy in capitals between blanks. -/
theorem decode_toJson_normal_of_partial :
    let identifier : Identifier := { name := "fetch\"Data\n", kind := .arrowFunction, sourceContext := "é\x01" }
    let given : Json := .array [.string "fetch\"Data\n", .object [("arrow-function", .null)], .string "é\x01"]
    let settings : Settings := { provider := .single .openai, openai := { apiKey := "k", timeoutMs := 10 } }
    let given' : Json := .object [("provider", .string " OPENAI\t"), ("theme", .nat 1),
      ("openai", .array [.string "k", .string "", .string "", .nat 10])]
    (Identifier.decode given = .ok identifier ∧ Identifier.decode identifier.toJson = .ok identifier ∧
        parse identifier.toJson.compact = .ok identifier.toJson) ∧
      Settings.decode given' = .ok settings ∧ Settings.decode settings.toJson = .ok settings := by
  intro identifier given settings given'
  have hi : Identifier.decode given = .ok identifier := rfl
  have hs : Settings.decode given' = .ok settings := by rfl
  obtain ⟨hfits, hnormal, -⟩ := (decode_toJson_normal .identifier).2 given identifier hi
  exact ⟨⟨hi, hnormal, ((decode_toJson_normal .identifier).1 identifier hfits).2.1⟩, hs,
    ((decode_toJson_normal .settings).2 given' settings hs).2.1⟩

end Stored

end NameAdvisor
