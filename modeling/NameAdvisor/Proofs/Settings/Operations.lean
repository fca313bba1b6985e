import NameAdvisor.Proofs.Settings.Init
import NameAdvisor.Proofs.Text.Numeral

/-!
# What is done with settings files

Settings are read, loaded, chosen, saved and overwritten in any order.  Whatever the files hold in between, and whatever
the environment says, the time limits of all settings that are handed out are acceptable, and so are those in a file that
values were put into.

## Main definitions

* `Settings.Operation`: something that is done with settings files.
* `Settings.Operation.perform`, `Settings.performAll`: the settings that it hands out, and the changed file system.
-/

namespace NameAdvisor

open Json

@[simp] theorem HostedSettings.timeoutMs_fillKey (h : HostedSettings) (key : String) :
    (h.fillKey key).timeoutMs = h.timeoutMs := by
  unfold fillKey
  split <;> rfl

namespace Settings

variable {s : Settings}

/-! ## The environment -/

theorem Acceptable.of_timeouts {t : Settings} (h : s.Acceptable) (ht : t.timeouts = s.timeouts) : t.Acceptable := by
  rwa [Acceptable, ht]

theorem timeouts_withKey (env : Environment) (s : Settings) (variableOf : ProviderKind × String) :
    (withKey env s variableOf).timeouts = s.timeouts := by
  obtain ⟨kind, name⟩ := variableOf
  unfold withKey
  split
  · cases kind <;> simp [modifyHosted, timeouts]
  · rfl

theorem timeouts_withPolicy (env : Environment) (s : Settings) : (withPolicy env s).timeouts = s.timeouts := by
  unfold withPolicy
  split <;> rfl

theorem timeouts_withEndpoint (env : Environment) (s : Settings) : (withEndpoint env s).timeouts = s.timeouts := by
  unfold withEndpoint
  split <;> rfl

theorem timeouts_withModel (env : Environment) (s : Settings) : (withModel env s).timeouts = s.timeouts := by
  unfold withModel
  split <;> rfl

/-- The limit that the environment names is taken only if it is acceptable. -/
theorem Acceptable.withHttpTimeout (h : s.Acceptable) (env : Environment) : (withHttpTimeout env s).Acceptable := by
  unfold Settings.withHttpTimeout
  split
  · next ms hms =>
    obtain ⟨v, -, hv⟩ := Option.bind_eq_some_iff.mp hms
    have hrange : 1000 ≤ ms ∧ ms ≤ 120000 := (Numeral.writes_of_readInRange hv).2
    obtain ⟨hcopilot, hprobe, -, -, -, -, hserver⟩ := forall_mem_timeouts.mp h
    exact forall_mem_timeouts.mpr ⟨hcopilot, hprobe, hrange, hrange, hrange, hrange, hserver⟩
  · exact h

theorem Acceptable.withEnvironment (h : s.Acceptable) (env : Environment) : (s.withEnvironment env).Acceptable := by
  have hkeys : ∀ keys : List (ProviderKind × String), (keys.foldl (withKey env) s).timeouts = s.timeouts := by
    intro keys
    induction keys generalizing s with
    | nil => rfl
    | cons key keys ih => rw [List.foldl_cons, ih (h.of_timeouts (timeouts_withKey env s key)), timeouts_withKey]
  refine Acceptable.withHttpTimeout (h.of_timeouts ?_) env
  rw [timeouts_withModel, timeouts_withEndpoint, timeouts_withPolicy, hkeys]

/-! ## Loading -/

theorem acceptable_firstUsable (fs : FileSystem) (candidates : List Path) :
    (firstUsable fs candidates).settings.Acceptable := by
  induction candidates with
  | nil => exact acceptable_default
  | cons p rest ih =>
    unfold firstUsable
    split
    · split
      · next hs => exact acceptable_of_ofFile hs
      · exact ih
    · exact ih

theorem acceptable_load (fs : FileSystem) (candidates : List Path) (env : Environment) :
    (load fs candidates env).settings.Acceptable :=
  (acceptable_firstUsable fs candidates).withEnvironment env

/-! ## Choosing -/

theorem exists_of_initFile {fs fs' : FileSystem} {p : Path} {o : SettingsOptions}
    (h : initFile fs p o = (.ok s, fs')) :
    s.Acceptable ∧ ∃ made, FileSystem.write made p (Utf8.encode s.fileText) = .ok fs' := by
  unfold initFile at h
  split at h
  · cases h
  · next old hold =>
    split at h
    · cases h
    · next saved hsave =>
      cases h
      obtain ⟨made, hwrite⟩ := exists_write_of_saveFile (congrArg Prod.fst hsave)
      rw [hsave] at hwrite
      exact ⟨(acceptable_of_present hold).withOptions o, made, hwrite⟩

/-- The text of a settings file is decoded as the settings that it was made from, without any repair. -/
theorem exists_decode_fileText (h : s.FitsWords) :
    ∃ j, parseCanonical s.fileText = .ok j ∧ decode j = .ok s := by
  refine ⟨s.toJson.canonical, ?_, ?_⟩
  · rw [parseCanonical, fileText, parse_pretty_append (readable_toJson h)]
    rfl
  · exact decode_of_carries (tidy_canonical _) (carries_canonical s.distinct_toJson) h

/-! ## Operations -/

/-- Something that is done with settings files. -/
inductive Operation where
  /-- Reads the settings in a file. -/
  | read (p : Path)
  /-- Loads the settings of the first usable candidate and of the environment. -/
  | load (candidates : List Path) (env : Environment)
  /-- Puts chosen values into a file. -/
  | init (p : Path) (options : SettingsOptions)
  /-- Saves settings in a file, whatever their time limits. -/
  | save (s : Settings) (p : Path)
  /-- Overwrites a file with anything. -/
  | write (p : Path) (content : ByteArray)

/-- The settings that an operation hands out, if any, and the changed file system. -/
def Operation.perform (fs : FileSystem) : Operation → Option Settings × FileSystem
  | .read p => ((ofFile fs p).toOption, fs)
  | .load candidates env => (some (Settings.load fs candidates env).settings, fs)
  | .init p options => ((initFile fs p options).1.toOption, (initFile fs p options).2)
  | .save s p => (none, (saveFile fs s p).2)
  | .write p content => (none, (fs.write p content).toOption.getD fs)

/-- The settings that some operations hand out, one after the other, and the changed file system. -/
def performAll (fs : FileSystem) : List Operation → List Settings × FileSystem
  | [] => ([], fs)
  | op :: ops =>
    let (handed, fs) := op.perform fs
    let (rest, fs) := performAll fs ops
    (handed.toList ++ rest, fs)

theorem performAll_cons (fs : FileSystem) (op : Operation) (ops : List Operation) :
    performAll fs (op :: ops) =
      ((op.perform fs).1.toList ++ (performAll (op.perform fs).2 ops).1, (performAll (op.perform fs).2 ops).2) :=
  rfl

theorem eq_ok_of_toOption {ε α : Type} {x : Except ε α} {a : α} (h : x.toOption = some a) : x = .ok a := by
  cases x with
  | error e => cases h
  | ok b => exact congrArg Except.ok (Option.some.inj h)

/-- Whatever the files hold, the settings that an operation hands out are acceptable. -/
theorem Operation.acceptable_of_perform {op : Operation} {fs : FileSystem} (h : (op.perform fs).1 = some s) :
    s.Acceptable := by
  cases op with
  | read p => exact acceptable_of_ofFile (eq_ok_of_toOption h)
  | load candidates env =>
    obtain rfl := Option.some.inj h
    exact acceptable_load fs candidates env
  | init p options => exact (exists_of_initFile (Prod.ext (eq_ok_of_toOption h) rfl)).1
  | save s p => cases h
  | write p content => cases h

/-- Whatever is done with settings files, all settings that are handed out are acceptable. -/
theorem acceptable_of_mem_handed {fs : FileSystem} {ops : List Operation} (h : s ∈ (performAll fs ops).1) :
    s.Acceptable := by
  induction ops generalizing fs with
  | nil => cases h
  | cons op ops ih =>
    rw [performAll_cons] at h
    obtain h | h := List.mem_append.mp h
    · exact Operation.acceptable_of_perform (Option.mem_toList.mp h)
    · exact ih h

/-- All time limits are acceptable in all settings that are handed out, in whatever order settings are read, loaded,
chosen, saved and overwritten.  After any such operations a file that values were put into holds, as it stands and as it
is read, just the settings that were handed out, which are acceptable. -/
theorem acceptable_performAll (fs : FileSystem) (ops : List Operation) :
    (∀ s ∈ (performAll fs ops).1, s.Acceptable) ∧
      ∀ p o s fs', initFile (performAll fs ops).2 p o = (.ok s, fs') →
        s.Acceptable ∧ ofFile fs' p = .ok s ∧
          ∃ text j, fs'.readText p = .ok text ∧ parseCanonical text = .ok j ∧ decode j = .ok s := by
  refine ⟨fun s hs => acceptable_of_mem_handed hs, ?_⟩
  intro p o s fs' h
  obtain ⟨hs, made, hwrite⟩ := exists_of_initFile h
  obtain ⟨j, hparse, hdecode⟩ := exists_decode_fileText hs.fitsWords
  exact ⟨hs, (ofFile_of_write hs hwrite).2, s.fileText, j, FileSystem.readText_of_write hwrite, hparse, hdecode⟩

/-- Limits of zero and of years are saved and loaded, a limit that is too short comes from the environment, and another
one is written by hand before a key is put in. -/
theorem acceptable_performAll_of_endless :
    let p : Path := ⟨"conf/ai.json"⟩
    let endless : Settings := { gemini := { timeoutMs := 0 }, ollama := { probeTimeoutMs := 100000000000 } }
    let env : Environment := fun name => if name = "NAMER_HTTP_TIMEOUT_MS" then some "999" else none
    let ops : List Operation := [.save endless p, .load [p] env,
      .write p (Utf8.encode "\x7b\"copilot\":\x7b\"timeoutMs\":5\x7d\x7d"), .read p]
    let chosen := initFile (performAll {} ops).2 p { openaiKey := some "k" }
    let s : Settings := { openai := { apiKey := "k", model := "gpt-4o-mini" } }
    chosen.1 = .ok s ∧ (performAll {} ops).1.length = 2 ∧ (∀ s ∈ (performAll {} ops).1, s.Acceptable) ∧
      s.Acceptable ∧ ofFile chosen.2 p = .ok s ∧
        ∃ text j, chosen.2.readText p = .ok text ∧ parseCanonical text = .ok j ∧ decode j = .ok s := by
  intro p endless env ops chosen s
  have hchosen : chosen.1 = .ok s := by decide +kernel
  have hlength : (performAll {} ops).1.length = 2 := by decide +kernel
  obtain ⟨hhanded, hheld⟩ := acceptable_performAll {} ops
  exact ⟨hchosen, hlength, hhanded, hheld p _ s chosen.2 (Prod.ext hchosen rfl)⟩

end Settings

end NameAdvisor
