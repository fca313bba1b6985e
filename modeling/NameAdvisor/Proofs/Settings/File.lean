import NameAdvisor.Proofs.FileSystem.Write
import NameAdvisor.Proofs.Json.RoundTrip
import NameAdvisor.Proofs.Settings.Codec
import NameAdvisor.Settings.File

/-!
# Settings files that were saved

Saved settings are read back from their file, with the defaults in place of the time limits that are not acceptable.

## Main definitions

* `Settings.Repaired`: settings that differ from others in such time limits only.
-/

namespace NameAdvisor

open Json

/-! ## What is written -/

theorem AssistantSettings.distinct_toJson (a : AssistantSettings) : Distinct a.toJson := by
  simp [toJson, nat]

theorem HostedSettings.distinct_toJson (h : HostedSettings) : Distinct h.toJson := by
  simp [toJson, nat]

theorem ServerSettings.distinct_toJson (s : ServerSettings) : Distinct s.toJson := by
  simp [toJson, nat]

namespace Settings

theorem forall_mem_timeouts {s : Settings} {P : Nat → Prop} : (∀ t ∈ s.timeouts, P t) ↔
    P s.copilot.timeoutMs ∧ P s.copilot.probeTimeoutMs ∧ P s.openai.timeoutMs ∧ P s.anthropic.timeoutMs ∧
      P s.gemini.timeoutMs ∧ P s.ollama.timeoutMs ∧ P s.ollama.probeTimeoutMs := by
  simp [timeouts]

/-- The time limits are words of 64 bits. -/
def FitsWords (s : Settings) : Prop :=
  ∀ t ∈ s.timeouts, t < Nat.pow 2 64

theorem distinct_toJson (s : Settings) : Distinct s.toJson := by
  simp [toJson, ProviderPolicy.toJson, AssistantSettings.distinct_toJson, HostedSettings.distinct_toJson,
    ServerSettings.distinct_toJson]

theorem readable_toJson {s : Settings} (h : s.FitsWords) : Readable depthLimit s.toJson := by
  have hw : ∀ t ∈ s.timeouts, t < wordLimit := h
  have ht := forall_mem_timeouts.mp hw
  rw [depthLimit_eq]
  simp [toJson, ProviderPolicy.toJson, AssistantSettings.toJson, HostedSettings.toJson, ServerSettings.toJson, nat,
    Number.IsWord, ht]

/-! ## What is read -/

/-- The settings in the text of a file are those that were written, with acceptable time limits. -/
theorem ofText_fileText {s : Settings} (h : s.FitsWords) : ofText s.fileText = .ok s.resetTimeouts := by
  have hparse : parseCanonical s.fileText = .ok s.toJson.canonical := by
    rw [parseCanonical, fileText, parse_pretty_append (readable_toJson h)]
    rfl
  have htidy : Tidy (overlay defaultJson s.toJson.canonical) := (tidy_canonical _).overlay (tidy_canonical _)
  have hcarries : Carries (overlay defaultJson s.toJson.canonical) s.toJson :=
    (carries_overlay (tidy_canonical _).distinct _).trans (carries_canonical s.distinct_toJson)
  rw [ofText, hparse]
  simp only [ofLayer, decode_of_carries htidy hcarries h]

def withoutTimeouts (s : Settings) : Settings :=
  { s with
    copilot := { s.copilot with timeoutMs := 0, probeTimeoutMs := 0 }
    openai := { s.openai with timeoutMs := 0 }
    anthropic := { s.anthropic with timeoutMs := 0 }
    gemini := { s.gemini with timeoutMs := 0 }
    ollama := { s.ollama with timeoutMs := 0, probeTimeoutMs := 0 } }

/-- `r` is `s` with the default of its own in the place of each time limit that is not acceptable. -/
structure Repaired (s r : Settings) : Prop where
  others : r.withoutTimeouts = s.withoutTimeouts
  timeouts : r.timeouts = List.zipWith (fun default ms => if 1000 ≤ ms ∧ ms ≤ 120000 then ms else default)
    [8000, 5000, 10000, 10000, 10000, 10000, 3000] s.timeouts

theorem timeoutOr_eq (default ms : Nat) :
    timeoutOr default ms = if 1000 ≤ ms ∧ ms ≤ 120000 then ms else default := by
  have ha : acceptsTimeout ms = true ↔ 1000 ≤ ms ∧ ms ≤ 120000 := by
    simp only [acceptsTimeout, Bool.and_eq_true, decide_eq_true_eq]
    rfl
  by_cases h : 1000 ≤ ms ∧ ms ≤ 120000
  · rw [timeoutOr, if_pos (ha.mpr h), if_pos h]
  · rw [timeoutOr, if_neg (mt ha.mp h), if_neg h]

theorem repaired_resetTimeouts (s : Settings) : Repaired s s.resetTimeouts := by
  constructor
  case others => rfl
  case timeouts => simp [Settings.timeouts, resetTimeouts, timeoutOr_eq]

/-- Settings stay as they are if all their time limits are acceptable. -/
theorem resetTimeouts_eq_self {s : Settings} (h : ∀ t ∈ s.timeouts, 1000 ≤ t ∧ t ≤ 120000) : s.resetTimeouts = s := by
  have ht := forall_mem_timeouts.mp h
  simp [resetTimeouts, timeoutOr_eq, ht]

theorem exists_write_of_saveFile {fs : FileSystem} {s : Settings} {p : Path} (h : (saveFile fs s p).1 = .ok ()) :
    ∃ made, FileSystem.write made p (Utf8.encode s.fileText) = .ok (saveFile fs s p).2 := by
  unfold saveFile at h ⊢
  split at h
  · cases h
  · next fs' hm =>
    refine ⟨fs', ?_⟩
    split at h
    · cases h
    · next hw => simp [hw]

/-- Settings that were saved are read back from their file: time limits that are not acceptable are replaced by their
defaults, and nothing else is. -/
theorem ofFile_saveFile {fs : FileSystem} {s : Settings} {p : Path} (hw : s.FitsWords)
    (h : (saveFile fs s p).1 = .ok ()) :
    ∃ r, ofFile (saveFile fs s p).2 p = .ok r ∧ Repaired s r ∧
      ((∀ t ∈ s.timeouts, 1000 ≤ t ∧ t ≤ 120000) → r = s) := by
  obtain ⟨made, hwrite⟩ := exists_write_of_saveFile h
  have hexists : (saveFile fs s p).2.exists? p = true := by
    rw [FileSystem.exists?, FileSystem.lookup_of_write hwrite]
    rfl
  refine ⟨s.resetTimeouts, ?_, repaired_resetTimeouts s, resetTimeouts_eq_self⟩
  rw [ofFile, if_pos hexists, FileSystem.readText_of_write hwrite]
  exact ofText_fileText hw

theorem ofFile_saveFile_of_shortTimeout :
    let s : Settings := { provider := .single .gemini, openai := { apiKey := "k\"é\n\x01", timeoutMs := 10 } }
    let saved := saveFile {} s ⟨"conf/ai.json"⟩
    s.FitsWords ∧ saved.1 = .ok () ∧
      ∃ r, ofFile saved.2 ⟨"conf/ai.json"⟩ = .ok r ∧ Repaired s r ∧
        ((∀ t ∈ s.timeouts, 1000 ≤ t ∧ t ≤ 120000) → r = s) := by
  intro s saved
  have hw : s.FitsWords := by
    unfold FitsWords
    decide +kernel
  have hs : saved.1 = .ok () := rfl
  exact ⟨hw, hs, ofFile_saveFile hw hs⟩

end Settings

end NameAdvisor
