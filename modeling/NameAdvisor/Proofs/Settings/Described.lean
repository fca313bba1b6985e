import NameAdvisor.Proofs.Json.Said
import NameAdvisor.Proofs.Settings.File
import NameAdvisor.Proofs.Settings.Precedence

/-!
# What a settings file describes

Every field of the settings in a file is what the file says of it, by the name of the field and of the object that it
stands in, and the default of that field where the file says nothing.  Which other members there are, and in which
order, makes no difference.

## Main definitions

* `AssistantSettings.ofSaid`, `HostedSettings.ofSaid`, `ServerSettings.ofSaid`, `Settings.ofSaid`: the settings that
  an object describes.
* `Settings.Describes`: objects whose members can stand in the fields of settings.
* `Settings.SaysSame`: objects that say the same of every field.
-/

namespace NameAdvisor

open Json

namespace Json

/-- A time limit, which is a word between one second and two minutes. -/
def asLimit? (j : Json) : Option Nat :=
  j.asWord?.filter fun ms => 1000 ≤ ms && ms ≤ 120000

/-- The policy that a text names. -/
def asPolicy? : Json → Option ProviderPolicy
  | .string s => (ProviderPolicy.read s).toOption
  | _ => none

/-- Fields, each with the values that can stand in it. -/
abbrev Slots : Type := List (String × (Json → Bool))

/-- What an object says of each field can stand in it. -/
def Typed (slots : Slots) (j : Json) : Prop :=
  ∀ slot ∈ slots, (said? slot.1 j).all slot.2 = true

instance (slots : Slots) (j : Json) : Decidable (Typed slots j) :=
  inferInstanceAs (Decidable (∀ slot ∈ slots, (said? slot.1 j).all slot.2 = true))

theorem Typed.of_mem {slots : Slots} {j : Json} (h : Typed slots j) {name : String} {fits : Json → Bool}
    (hm : (name, fits) ∈ slots) : (said? name j).all fits = true :=
  h _ hm

theorem isScalar_of_asPolicy? {j : Json} {policy : ProviderPolicy} (h : j.asPolicy? = some policy) : j.isScalar := by
  cases j <;> first | rfl | cases h

theorem decode_of_asPolicy? {j : Json} {policy : ProviderPolicy} (h : j.asPolicy? = some policy) :
    ProviderPolicy.decode j = .ok policy := by
  cases j with
  | string s =>
    rw [asPolicy?] at h
    rw [ProviderPolicy.decode, Decoder.text]
    cases hr : ProviderPolicy.read s with
    | error e => simp [hr, Except.toOption] at h
    | ok p =>
      simp only [hr, Except.toOption, Option.some.injEq] at h
      rw [h]
      rfl
  | _ => cases h

/-- A limit that is said counts if it is acceptable. -/
theorem timeoutOr_saidOr (key : String) (default : Nat) (j : Json) :
    Settings.timeoutOr default (saidOr key asWord? default j) = saidOr key asLimit? default j := by
  rw [Settings.timeoutOr_eq, saidOr, saidOr]
  cases said? key j with
  | none => simp
  | some v =>
    cases hw : v.asWord? with
    | none => simp [asLimit?, hw]
    | some ms => by_cases hms : 1000 ≤ ms ∧ ms ≤ 120000 <;> simp [asLimit?, hw, hms, Option.filter]

end Json

/-! ## The settings of one backend -/

namespace AssistantSettings

def slots : Slots := [("program", isText), ("timeoutMs", isWord), ("probeTimeoutMs", isWord)]

/-- The settings that `j` describes, with those of `d` where it says nothing; `limit` reads time limits. -/
def ofSaid (limit : Json → Option Nat) (d : AssistantSettings) (j : Json) : AssistantSettings where
  program := saidOr "program" asString? d.program j
  timeoutMs := saidOr "timeoutMs" limit d.timeoutMs j
  probeTimeoutMs := saidOr "probeTimeoutMs" limit d.probeTimeoutMs j

theorem decode_laid {d : AssistantSettings} (ht : d.timeoutMs < Nat.pow 2 64) (hp : d.probeTimeoutMs < Nat.pow 2 64)
    {j : Json} (hj : j.isObject = true) (h : Typed slots j) :
    decode (overlay d.toJson.canonical j.canonical) = .ok (d.ofSaid asWord? j) := by
  obtain ⟨ms, rfl⟩ := exists_members_of_isObject hj
  have hcarries : Carries (overlay d.toJson.canonical (canonical (.object ms)))
      (d.ofSaid asWord? (.object ms)).toJson := by
    rw [toJson, overlay_canonical_object]
    refine carries_of_forall ?_
    simp only [List.forall_mem_cons]
    refine ⟨?_, ?_, ?_, List.forall_mem_nil _⟩
    · exact find?_laid_text rfl (h.of_mem (by simp [slots]))
    · exact find?_laid_word rfl (h.of_mem (by simp [slots]))
    · exact find?_laid_word rfl (h.of_mem (by simp [slots]))
  exact decode_of_carries ((tidy_canonical _).overlay (tidy_canonical _)) hcarries (lt_of_saidOr_asWord? ht _)
    (lt_of_saidOr_asWord? hp _)

end AssistantSettings

namespace HostedSettings

def slots : Slots := [("apiKey", isText), ("model", isText), ("baseUrl", isText), ("timeoutMs", isWord)]

@[inherit_doc AssistantSettings.ofSaid]
def ofSaid (limit : Json → Option Nat) (d : HostedSettings) (j : Json) : HostedSettings where
  apiKey := saidOr "apiKey" asString? d.apiKey j
  model := saidOr "model" asString? d.model j
  baseUrl := saidOr "baseUrl" asString? d.baseUrl j
  timeoutMs := saidOr "timeoutMs" limit d.timeoutMs j

theorem decode_laid {d : HostedSettings} (ht : d.timeoutMs < Nat.pow 2 64) {j : Json} (hj : j.isObject = true)
    (h : Typed slots j) : decode (overlay d.toJson.canonical j.canonical) = .ok (d.ofSaid asWord? j) := by
  obtain ⟨ms, rfl⟩ := exists_members_of_isObject hj
  have hcarries : Carries (overlay d.toJson.canonical (canonical (.object ms)))
      (d.ofSaid asWord? (.object ms)).toJson := by
    rw [toJson, overlay_canonical_object]
    refine carries_of_forall ?_
    simp only [List.forall_mem_cons]
    refine ⟨?_, ?_, ?_, ?_, List.forall_mem_nil _⟩
    · exact find?_laid_text rfl (h.of_mem (by simp [slots]))
    · exact find?_laid_text rfl (h.of_mem (by simp [slots]))
    · exact find?_laid_text rfl (h.of_mem (by simp [slots]))
    · exact find?_laid_word rfl (h.of_mem (by simp [slots]))
  exact decode_of_carries ((tidy_canonical _).overlay (tidy_canonical _)) hcarries (lt_of_saidOr_asWord? ht _)

end HostedSettings

namespace ServerSettings

def slots : Slots := [("endpoint", isText), ("model", isText), ("timeoutMs", isWord), ("probeTimeoutMs", isWord)]

@[inherit_doc AssistantSettings.ofSaid]
def ofSaid (limit : Json → Option Nat) (d : ServerSettings) (j : Json) : ServerSettings where
  endpoint := saidOr "endpoint" asString? d.endpoint j
  model := saidOr "model" asString? d.model j
  timeoutMs := saidOr "timeoutMs" limit d.timeoutMs j
  probeTimeoutMs := saidOr "probeTimeoutMs" limit d.probeTimeoutMs j

theorem decode_laid {d : ServerSettings} (ht : d.timeoutMs < Nat.pow 2 64) (hp : d.probeTimeoutMs < Nat.pow 2 64)
    {j : Json} (hj : j.isObject = true) (h : Typed slots j) :
    decode (overlay d.toJson.canonical j.canonical) = .ok (d.ofSaid asWord? j) := by
  obtain ⟨ms, rfl⟩ := exists_members_of_isObject hj
  have hcarries : Carries (overlay d.toJson.canonical (canonical (.object ms)))
      (d.ofSaid asWord? (.object ms)).toJson := by
    rw [toJson, overlay_canonical_object]
    refine carries_of_forall ?_
    simp only [List.forall_mem_cons]
    refine ⟨?_, ?_, ?_, ?_, List.forall_mem_nil _⟩
    · exact find?_laid_text rfl (h.of_mem (by simp [slots]))
    · exact find?_laid_text rfl (h.of_mem (by simp [slots]))
    · exact find?_laid_word rfl (h.of_mem (by simp [slots]))
    · exact find?_laid_word rfl (h.of_mem (by simp [slots]))
  exact decode_of_carries ((tidy_canonical _).overlay (tidy_canonical _)) hcarries (lt_of_saidOr_asWord? ht _)
    (lt_of_saidOr_asWord? hp _)

end ServerSettings

/-! ## All settings -/

theorem FileSystem.exists?_of_readText {fs : FileSystem} {p : Path} {text : String} (h : fs.readText p = .ok text) :
    fs.exists? p = true := by
  unfold exists? lookup
  unfold readText readBytes at h
  cases hr : fs.resolve p true with
  | error e => simp [hr] at h
  | ok found =>
    obtain ⟨loc, node⟩ := found
    cases node with
    | none => simp [hr] at h
    | some node => rfl

namespace Settings

/-- The objects inside a settings file, each with the fields in it. -/
def parts : List (String × Slots) :=
  [("copilot", AssistantSettings.slots), ("openai", HostedSettings.slots), ("anthropic", HostedSettings.slots),
    ("gemini", HostedSettings.slots), ("ollama", ServerSettings.slots)]

/-- The settings that `j` describes, with the defaults where it says nothing; `limit` reads time limits. -/
def ofSaid (limit : Json → Option Nat) (j : Json) : Settings :=
  let d : Settings := {}
  { provider := saidOr "provider" asPolicy? d.provider j
    copilot := d.copilot.ofSaid limit (part "copilot" j)
    openai := d.openai.ofSaid limit (part "openai" j)
    anthropic := d.anthropic.ofSaid limit (part "anthropic" j)
    gemini := d.gemini.ofSaid limit (part "gemini" j)
    ollama := d.ollama.ofSaid limit (part "ollama" j) }

/-- An object with objects, if anything, under the names of the backends. -/
structure Shaped (j : Json) : Prop where
  isObject : j.isObject = true
  parts : ∀ p ∈ parts, (said? p.1 j).all Json.isObject = true

/-- An object whose members can stand in the fields of settings, as far as they have the name of one and are not
null. -/
structure Describes (j : Json) : Prop extends Shaped j where
  provider : (said? "provider" j).all (fun v => v.asPolicy?.isSome) = true
  fields : ∀ p ∈ Settings.parts, Typed p.2 (part p.1 j)

/-- Two objects say the same of every field; the order of members and members of other names, there or in the objects
inside, do not count. -/
structure SaysSame (j k : Json) : Prop where
  provider : said? "provider" j = said? "provider" k
  fields : ∀ p ∈ parts, ∀ slot ∈ p.2, said? slot.1 (part p.1 j) = said? slot.1 (part p.1 k)

variable {j k : Json}

theorem SaysSame.ofSaid_eq (h : SaysSame j k) (limit : Json → Option Nat) : ofSaid limit j = ofSaid limit k := by
  have hfields := h.fields
  simp only [parts, AssistantSettings.slots, HostedSettings.slots, ServerSettings.slots,
    List.forall_mem_cons] at hfields
  simp [ofSaid, AssistantSettings.ofSaid, HostedSettings.ofSaid, ServerSettings.ofSaid, saidOr, h.provider, hfields]

theorem Describes.of_saysSame (hk : Describes k) (h : SaysSame j k) (hj : Shaped j) : Describes j := by
  refine ⟨hj, ?_, ?_⟩
  · rw [h.provider]
    exact hk.provider
  · intro p hp slot hslot
    rw [h.fields p hp slot hslot]
    exact hk.fields p hp slot hslot

/-- The members that settings are written as. -/
def members (s : Settings) : Members :=
  [("provider", s.provider.toJson), ("copilot", s.copilot.toJson), ("openai", s.openai.toJson),
    ("anthropic", s.anthropic.toJson), ("gemini", s.gemini.toJson), ("ollama", s.ollama.toJson)]

/-- Under the name of the policy stands something that is read as what is said of it. -/
theorem Describes.exists_provider {ms : Members} (h : Describes (.object ms)) :
    ∃ v, Members.find? "provider" (laid (members {}) ms) = some v ∧
      ProviderPolicy.decode v = .ok (saidOr "provider" asPolicy? .rules (.object ms)) := by
  have hp := h.provider
  have hb : Members.last? "provider" (members {}) = some (.string "rules") := rfl
  rw [saidOr]
  cases hv : said? "provider" (.object ms) with
  | none =>
    refine ⟨.string "rules", ?_, ProviderPolicy.decode_toJson .rules⟩
    rw [find?_laid, hv, hb]
    rfl
  | some v =>
    rw [hv, Option.all_some] at hp
    obtain ⟨policy, hpolicy⟩ := Option.isSome_iff_exists.mp hp
    have hs : ∀ w, said? "provider" (.object ms) = some w → w.isScalar := by
      intro w hw
      cases hv.symm.trans hw
      exact isScalar_of_asPolicy? hpolicy
    refine ⟨v, ?_, by simpa [hpolicy] using decode_of_asPolicy? hpolicy⟩
    rw [find?_laid_of_isScalar hb rfl hs, hv]
    rfl

/-- Under the name of a backend stands something that is read as what is said of it. -/
theorem Describes.exists_decoded {ms : Members} (h : Describes (.object ms)) (key : String) {slots : Slots} {old : Json}
    {α : Type} {decode : Decoder α} {given : Json → α} (hp : (key, slots) ∈ parts)
    (hb : Members.last? key (members {}) = some old) (ho : old.isObject = true)
    (hd : ∀ {k}, k.isObject = true → Typed slots k → decode (overlay old.canonical k.canonical) = .ok (given k)) :
    ∃ v, Members.find? key (laid (members {}) ms) = some v ∧ decode v = .ok (given (part key (.object ms))) :=
  ⟨_, find?_laid_of_isObject hb ho, hd (isObject_part (h.parts _ hp)) (h.fields _ hp)⟩

/-- The settings that are read from an object laid over the defaults, time limits as they stand there. -/
theorem Describes.decode_overlay (h : Describes j) :
    decode (overlay defaultJson j.canonical) = .ok (ofSaid asWord? j) := by
  obtain ⟨ms, rfl⟩ := exists_members_of_isObject h.isObject
  have hlaid : overlay defaultJson (canonical (.object ms)) = .object (laid (members {}) ms) :=
    overlay_canonical_object (members {}) ms
  have htidy : Tidy (.object (laid (members {}) ms)) := hlaid ▸ (tidy_canonical _).overlay (tidy_canonical _)
  obtain ⟨provider, hprovider, hd⟩ := h.exists_provider
  obtain ⟨copilot, hcopilot, hd₁⟩ := h.exists_decoded "copilot" (by simp [parts]) rfl rfl
    (AssistantSettings.decode_laid (by decide) (by decide))
  obtain ⟨openai, hopenai, hd₂⟩ := h.exists_decoded "openai" (by simp [parts]) rfl rfl
    (HostedSettings.decode_laid (by decide))
  obtain ⟨anthropic, hanthropic, hd₃⟩ := h.exists_decoded "anthropic" (by simp [parts]) rfl rfl
    (HostedSettings.decode_laid (by decide))
  obtain ⟨gemini, hgemini, hd₄⟩ := h.exists_decoded "gemini" (by simp [parts]) rfl rfl
    (HostedSettings.decode_laid (by decide))
  obtain ⟨ollama, hollama, hd₅⟩ := h.exists_decoded "ollama" (by simp [parts]) rfl rfl
    (ServerSettings.decode_laid (by decide) (by decide))
  have hchecks : ∀ f ∈ Settings.fields, ∀ v, Members.find? f.name (laid (members {}) ms) = some v →
      f.check v = .ok () := by
    simp [Settings.fields, Field.of, hprovider, hcopilot, hopenai, hanthropic, hgemini, hollama, hd, hd₁, hd₂, hd₃,
      hd₄, hd₅, Except.map]
  rw [hlaid]
  simp [decode, Record.ofJson_object htidy _ hchecks, Record.field, hprovider, hcopilot, hopenai, hanthropic, hgemini,
    hollama, hd, hd₁, hd₂, hd₃, hd₄, hd₅, bind, Except.bind, pure, Except.pure, ofSaid]

/-- The time limits that are not acceptable count as not said. -/
theorem resetTimeouts_ofSaid (j : Json) : (ofSaid asWord? j).resetTimeouts = ofSaid asLimit? j := by
  simp only [resetTimeouts, ofSaid, AssistantSettings.ofSaid, HostedSettings.ofSaid, ServerSettings.ofSaid,
    timeoutOr_saidOr]

theorem Describes.ofFile_eq (h : Describes j) {fs : FileSystem} {p : Path} {text : String}
    (ht : fs.readText p = .ok text) (hj : parse text = .ok j) : ofFile fs p = .ok (ofSaid asLimit? j) := by
  have hparse : parseCanonical text = .ok j.canonical := by simp [parseCanonical, hj, Except.map]
  refine (ofFile_eq_ok_iff (FileSystem.exists?_of_readText ht)).mpr ⟨text, _, _, ht, hparse, h.decode_overlay, ?_⟩
  exact resetTimeouts_ofSaid j

/-- A settings file whose members have the right types yields settings.  Each field is what the file says of it, for a
time limit if that is acceptable, and otherwise the default of that field of that backend.  A file that says the same
of every field yields the same settings, whatever else it holds and in whatever order. -/
theorem ofFile_eq_ofSaid {fs : FileSystem} {p : Path} {text : String} {j : Json} (ht : fs.readText p = .ok text)
    (hj : parse text = .ok j) (h : Describes j) :
    ofFile fs p = .ok (ofSaid asLimit? j) ∧
      ∀ fs' p' text' k, FileSystem.readText fs' p' = .ok text' → parse text' = .ok k → Shaped k → SaysSame k j →
        ofFile fs' p' = ofFile fs p := by
  refine ⟨h.ofFile_eq ht hj, ?_⟩
  intro fs' p' text' k ht' hk hshape hsame
  rw [(h.of_saysSame hsame hshape).ofFile_eq ht' hk, h.ofFile_eq ht hj, hsame.ofSaid_eq]

/-- A model that is given and then taken back, a backend that is null, a limit that is too short, and names that no
field has. -/
theorem ofFile_of_unknownMembers :
    let j : Json := .object [("openai", .object [("model", .string "m"), ("seed", .object [("model", .bool true)]),
      ("model", .null), ("apiKey", .string "k")]), ("provider", .string " Auto"), ("gemini", .null),
      ("theme", .bool true), ("ollama", .object [("timeoutMs", .nat 10), ("probeTimeoutMs", .nat 2000)])]
    let fs : FileSystem := { entries := [(["ai.json"], .file (Utf8.encode j.compact))] }
    fs.readText ⟨"ai.json"⟩ = .ok j.compact ∧ parse j.compact = .ok j ∧ Describes j ∧
      ofFile fs ⟨"ai.json"⟩ = .ok
        { provider := .auto, openai := { apiKey := "k", model := "gpt-4o-mini" },
          ollama := { probeTimeoutMs := 2000 } } ∧
      ∀ fs' p' text' k, FileSystem.readText fs' p' = .ok text' → parse text' = .ok k → Shaped k → SaysSame k j →
        ofFile fs' p' = ofFile fs ⟨"ai.json"⟩ := by
  intro j fs
  have ht : fs.readText ⟨"ai.json"⟩ = .ok j.compact := by
    have hb : fs.readBytes ⟨"ai.json"⟩ = .ok (Utf8.encode j.compact) := rfl
    rw [FileSystem.readText, hb]
    simp only [Utf8.decode_encode]
  have hj : parse j.compact = .ok j := parse_compact (by simp [j, nat, depthLimit, Number.IsWord, wordLimit])
  have hd : Describes j := ⟨⟨rfl, by decide +kernel⟩, by decide +kernel, by decide +kernel⟩
  have hs : ofSaid asLimit? j =
      { provider := .auto, openai := { apiKey := "k", model := "gpt-4o-mini" },
        ollama := { probeTimeoutMs := 2000 } } := by
    decide +kernel
  obtain ⟨hfile, hsame⟩ := ofFile_eq_ofSaid ht hj hd
  exact ⟨ht, hj, hd, hs ▸ hfile, hsame⟩

end Settings

end NameAdvisor
