import NameAdvisor.Proofs.Json.Nulls
import NameAdvisor.Proofs.Settings.Described

/-!
# Null members of settings files

A member that is null does as much in a settings file as one that is absent, wherever it stands: in the settings, in
those of a backend, inside a value that cannot stand where it does, or inside one that no field has the name of.

What the members of a file become is laid over the defaults, so that neither the settings nor what stands in them for a
backend has null members of its own; and those further inside are where no reader looks.
-/

namespace NameAdvisor

open Json

section Backends

variable {j : Json}

theorem AssistantSettings.decode_withoutNulls (hj : j.isFilled = true) : decode j.withoutNulls = decode j := by
  refine Record.bind_withoutNulls (Record.ofJson_withoutNulls hj _ ?fields) fun r _ => ?read
  case fields => simp [fields, Field.of]
  case read => simp [Record.field_withoutNulls]

theorem HostedSettings.decode_withoutNulls (hj : j.isFilled = true) : decode j.withoutNulls = decode j := by
  refine Record.bind_withoutNulls (Record.ofJson_withoutNulls hj _ ?fields) fun r _ => ?read
  case fields => simp [fields, Field.of]
  case read => simp [Record.field_withoutNulls]

theorem ServerSettings.decode_withoutNulls (hj : j.isFilled = true) : decode j.withoutNulls = decode j := by
  refine Record.bind_withoutNulls (Record.ofJson_withoutNulls hj _ ?fields) fun r _ => ?read
  case fields => simp [fields, Field.of]
  case read => simp [Record.field_withoutNulls]

end Backends

@[simp] theorem ProviderPolicy.decode_withoutNulls (j : Json) : decode j.withoutNulls = decode j :=
  Decoder.text_withoutNulls read j

namespace Settings

/-- Settings are read as they are without the null members in what stands for them, if no member of theirs is null and
none of those of a backend's. -/
theorem decode_withoutNulls {members : Members} (hn : (Members.names members).Nodup)
    (hm : isFilled (.object members) = true)
    (hp : ∀ p ∈ parts, ∀ v, Members.find? p.1 members = some v → v.isFilled = true) :
    decode (.object members : Json).withoutNulls = decode (.object members) := by
  simp only [parts, List.forall_mem_cons] at hp
  obtain ⟨h₁, h₂, h₃, h₄, h₅, -⟩ := hp
  have hcopilot v (hv : Members.find? "copilot" members = some v) := AssistantSettings.decode_withoutNulls (h₁ v hv)
  have hopenai v (hv : Members.find? "openai" members = some v) := HostedSettings.decode_withoutNulls (h₂ v hv)
  have hanthropic v (hv : Members.find? "anthropic" members = some v) := HostedSettings.decode_withoutNulls (h₃ v hv)
  have hgemini v (hv : Members.find? "gemini" members = some v) := HostedSettings.decode_withoutNulls (h₄ v hv)
  have hollama v (hv : Members.find? "ollama" members = some v) := ServerSettings.decode_withoutNulls (h₅ v hv)
  refine Record.bind_withoutNulls (Record.ofJson_object_withoutNulls hm _ ?fields) fun r hr => ?read
  case fields =>
    intro f hf v hv
    have hfind := Members.find?_of_mem hn hv
    simp only [fields, List.mem_cons, List.not_mem_nil, or_false] at hf
    obtain rfl | rfl | rfl | rfl | rfl | rfl := hf
    · exact Field.check_withoutNulls (ProviderPolicy.decode_withoutNulls v)
    · exact Field.check_withoutNulls (hcopilot v hfind)
    · exact Field.check_withoutNulls (hopenai v hfind)
    · exact Field.check_withoutNulls (hanthropic v hfind)
    · exact Field.check_withoutNulls (hgemini v hfind)
    · exact Field.check_withoutNulls (hollama v hfind)
  case read =>
    have hg := Record.given_of_ofJson_object hr
    rw [← hg] at hcopilot hopenai hanthropic hgemini hollama
    simp only [Record.field_withoutNulls fun v _ => ProviderPolicy.decode_withoutNulls v,
      Record.field_withoutNulls hcopilot, Record.field_withoutNulls hopenai, Record.field_withoutNulls hanthropic,
      Record.field_withoutNulls hgemini, Record.field_withoutNulls hollama]

/-! ## Files -/

/-- No member of the defaults is null, and none of those of a backend. -/
theorem exists_defaultJson : ∃ members, defaultJson = .object members ∧ isFilled (.object members) = true ∧
    ∀ p ∈ parts, ∃ inner, Members.find? p.1 members = some (.object inner) ∧ isFilled (.object inner) = true := by
  refine ⟨_, rfl, rfl, ?_⟩
  simp only [parts, List.forall_mem_cons]
  exact ⟨⟨_, rfl, rfl⟩, ⟨_, rfl, rfl⟩, ⟨_, rfl, rfl⟩, ⟨_, rfl, rfl⟩, ⟨_, rfl, rfl⟩, List.forall_mem_nil _⟩

variable {j k : Json}

theorem decode_overlay_withoutNulls (ht : Tidy j) (hj : j.isObject = true) :
    decode (overlay defaultJson.withoutNulls j.withoutNulls) = decode (overlay defaultJson j) := by
  have hd : Tidy defaultJson := tidy_canonical _
  have hlaid : Tidy (overlay defaultJson j) := ht.overlay hd
  rw [← withoutNulls_overlay ht hd]
  obtain ⟨layer, rfl⟩ := exists_members_of_isObject hj
  obtain ⟨members, hmembers, hm, hparts⟩ := exists_defaultJson
  rw [hmembers, overlay] at hlaid ⊢
  obtain ⟨hl, -⟩ := throughout_object_iff.mp ht
  obtain ⟨hn, -⟩ := throughout_object_iff.mp hlaid
  refine decode_withoutNulls hn.nodup (isFilled_overlayMembers hm layer) fun p hp v hv => ?_
  obtain ⟨inner, hinner, hfilled⟩ := hparts p hp
  exact isFilled_of_find?_overlayMembers hl.nodup hinner hfilled hv

theorem ofLayer_of_sameButNulls (hj : Tidy j) (hk : Tidy k) (hoj : j.isObject = true) (hok : k.isObject = true)
    (h : SameButNulls j k) : ofLayer j = ofLayer k := by
  have hjk : j.withoutNulls = k.withoutNulls := h
  rw [ofLayer, ofLayer, ← decode_overlay_withoutNulls hj hoj, hjk, decode_overlay_withoutNulls hk hok]

theorem ofFile_eq_ofLayer {fs : FileSystem} {p : Path} {text : String} (ht : fs.readText p = .ok text)
    (hj : parseCanonical text = .ok j) : ofFile fs p = ofLayer j := by
  simp only [ofFile, FileSystem.exists?_of_readText ht, if_true, ht, ofText, hj]

/-- Two settings files that hold objects give the same settings, or are refused for the same reason, if their objects
differ in nothing but null members, however many and however deep inside: a null member means what an absent one
does. -/
theorem ofFile_of_sameButNulls {fs fs' : FileSystem} {p p' : Path} {text text' : String}
    (ht : fs.readText p = .ok text) (ht' : fs'.readText p' = .ok text') (hj : parseCanonical text = .ok j)
    (hk : parseCanonical text' = .ok k) (hoj : j.isObject = true) (hok : k.isObject = true) (h : SameButNulls j k) :
    ofFile fs p = ofFile fs' p' := by
  rw [ofFile_eq_ofLayer ht hj, ofFile_eq_ofLayer ht' hk]
  exact ofLayer_of_sameButNulls (tidy_of_parseCanonical hj) (tidy_of_parseCanonical hk) hoj hok h

/-- A backend that is null, a field of one, and a member of an object in an array that no field has the name of. -/
theorem ofFile_of_nullBackend :
    let j : Json := .object [("gemini", .null), ("openai", .object [("apiKey", .string "k"), ("model", .null)]),
      ("themes", .array [.object [("seed", .null)], .null])]
    let k : Json := .object [("openai", .object [("apiKey", .string "k")]), ("themes", .array [.object [], .null])]
    let fs : FileSystem :=
      { entries := [(["ai.json"], .file (Utf8.encode j.compact)), (["bare.json"], .file (Utf8.encode k.compact))] }
    fs.readText ⟨"ai.json"⟩ = .ok j.compact ∧ fs.readText ⟨"bare.json"⟩ = .ok k.compact ∧
      parseCanonical j.compact = .ok j ∧ parseCanonical k.compact = .ok k ∧ j.isObject = true ∧ k.isObject = true ∧
      SameButNulls j k ∧ ofFile fs ⟨"ai.json"⟩ = ofFile fs ⟨"bare.json"⟩ ∧
      (ofFile fs ⟨"bare.json"⟩).toOption = some { openai := { apiKey := "k", model := "gpt-4o-mini" } } := by
  intro j k fs
  have ht : fs.readText ⟨"ai.json"⟩ = .ok j.compact := FileSystem.readText_of_readBytes rfl
  have ht' : fs.readText ⟨"bare.json"⟩ = .ok k.compact := FileSystem.readText_of_readBytes rfl
  have hj : parseCanonical j.compact = .ok j := by
    rw [parseCanonical, parse_compact (by simp [j, depthLimit])]
    rfl
  have hk : parseCanonical k.compact = .ok k := by
    rw [parseCanonical, parse_compact (by simp [k, depthLimit])]
    rfl
  have hbare : (ofFile fs ⟨"bare.json"⟩).toOption = some { openai := { apiKey := "k", model := "gpt-4o-mini" } } := by
    rw [ofFile_eq_ofLayer ht' hk]
    decide +kernel
  exact ⟨ht, ht', hj, hk, rfl, rfl, rfl, ofFile_of_sameButNulls ht ht' hj hk rfl rfl rfl, hbare⟩

/-- An object where a key should stand is refused, with a null member and without it. -/
example :
    let refused : SettingsError := .wrongShape (.wrongType "map" "a string")
    ofLayer (.object [("openai", .array [.object [("apiKey", .null)]])]) = .error refused ∧
      ofLayer (.object [("openai", .array [.object []])]) = .error refused :=
  ⟨rfl, rfl⟩

end Settings

end NameAdvisor
