import NameAdvisor.Proofs.FileSystem.Directories
import NameAdvisor.Proofs.Settings.File
import Mathlib.Control.Monad.Basic

/-!
# Settings files that are chosen values for

Putting values into a settings file twice is putting them in once, the later values first: the file comes out the
same, and so do the settings that it holds.

## Main definitions

* `Settings.Acceptable`: settings whose time limits are all acceptable.
* `Settings.Savable`: paths under which settings can be saved.
-/

namespace NameAdvisor

@[simp] theorem SettingsOptions.orElse_self (o : SettingsOptions) : o.orElse o = o := by
  simp [orElse]

namespace Settings

/-! ## Acceptable time limits -/

def Acceptable (s : Settings) : Prop :=
  ∀ t ∈ s.timeouts, 1000 ≤ t ∧ t ≤ 120000

theorem Acceptable.fitsWords {s : Settings} (h : s.Acceptable) : s.FitsWords := by
  intro t ht
  have hword : 120000 < Nat.pow 2 64 := by decide
  exact Nat.lt_of_le_of_lt (h t ht).2 hword

theorem acceptable_default : ({} : Settings).Acceptable := by
  unfold Acceptable
  decide

theorem acceptable_resetTimeouts (s : Settings) : s.resetTimeouts.Acceptable := by
  have hor : ∀ {default ms : Nat}, 1000 ≤ default ∧ default ≤ 120000 →
      1000 ≤ timeoutOr default ms ∧ timeoutOr default ms ≤ 120000 := by
    intro default ms hd
    rw [timeoutOr_eq]
    split
    · assumption
    · exact hd
  obtain ⟨h₁, h₂, h₃, h₄, h₅, h₆, h₇⟩ := forall_mem_timeouts.mp acceptable_default
  exact forall_mem_timeouts.mpr ⟨hor h₁, hor h₂, hor h₃, hor h₄, hor h₅, hor h₆, hor h₇⟩

theorem Acceptable.withOptions {s : Settings} (h : s.Acceptable) (o : SettingsOptions) :
    (s.withOptions o).Acceptable :=
  h

theorem acceptable_of_ofText {text : String} {s : Settings} (h : ofText text = .ok s) : s.Acceptable := by
  unfold ofText ofLayer at h
  split at h
  · split at h
    · cases h
      exact acceptable_resetTimeouts _
    · cases h
  · cases h

/-- Whatever a file holds, the settings that are read from it are acceptable. -/
theorem acceptable_of_ofFile {fs : FileSystem} {p : Path} {s : Settings} (h : ofFile fs p = .ok s) : s.Acceptable := by
  unfold ofFile at h
  split at h
  · split at h
    · exact acceptable_of_ofText h
    · cases h
  · cases h
    exact acceptable_resetTimeouts _

theorem acceptable_of_present {fs : FileSystem} {p : Path} {s : Settings} (h : present fs p = .ok s) :
    s.Acceptable := by
  unfold present at h
  split at h
  · exact acceptable_of_ofFile h
  · cases h
    exact acceptable_default

/-! ## Saving again -/

/-- The directories above the path are there or can be made, and then a file can be written there. -/
def Savable (fs : FileSystem) (p : Path) : Prop :=
  ∃ made opened, makeParent fs p = (.ok (), made) ∧ made.openForWriting p = .ok opened

theorem savable_iff {fs : FileSystem} {p : Path} :
    Savable fs p ↔ (makeParent fs p).1 = .ok () ∧ ((makeParent fs p).2.openForWriting p).isOk = true := by
  constructor
  · rintro ⟨made, opened, hm, ho⟩
    simp [hm, ho, Except.isOk, Except.toBool]
  · rintro ⟨hm, ho⟩
    cases hw : (makeParent fs p).2.openForWriting p with
    | error e => simp [hw, Except.isOk, Except.toBool] at ho
    | ok opened => exact ⟨_, opened, Prod.ext hm rfl, hw⟩

instance (fs : FileSystem) (p : Path) : Decidable (Savable fs p) :=
  decidable_of_iff _ savable_iff.symm

/-- Once a file was written, what is above it is there. -/
theorem makeParent_of_write {fs made fs' : FileSystem} {p : Path} {bytes : ByteArray}
    (hm : makeParent fs p = (.ok (), made)) (hw : made.write p bytes = .ok fs') :
    makeParent fs' p = (.ok (), fs') := by
  unfold makeParent at hm ⊢
  cases hp : p.parent? with
  | none => rfl
  | some parent =>
    simp only [hp] at hm ⊢
    split at hm
    · next he => rw [if_pos he]
    · next he =>
      rw [if_neg he]
      have hmade := FileSystem.isDirectory_of_makeDirectories (by simpa using he) hm
      exact FileSystem.makeDirectories_of_isDirectory (FileSystem.isDirectory_of_write hw hmade)

theorem Savable.exists_write {fs : FileSystem} {p : Path} (h : Savable fs p) (s : Settings) :
    ∃ made fs', makeParent fs p = (.ok (), made) ∧ made.write p (Utf8.encode s.fileText) = .ok fs' ∧
      saveFile fs s p = (.ok (), fs') := by
  obtain ⟨made, ⟨loc, content⟩, hm, ho⟩ := h
  have hw : made.write p (Utf8.encode s.fileText) = .ok (made.set loc (.file (Utf8.encode s.fileText))) := by
    simp [FileSystem.write, ho, Except.map]
  exact ⟨made, _, hm, hw, by simp [saveFile, hm, hw]⟩

/-- Of two settings that are saved one after the other, only the second remain. -/
theorem Savable.saveFile_saveFile {fs : FileSystem} {p : Path} (h : Savable fs p) (s t : Settings) :
    saveFile (saveFile fs s p).2 t p = saveFile fs t p := by
  obtain ⟨made, fs', hm, hw, hs⟩ := h.exists_write s
  obtain ⟨fs'', hfirst, hagain⟩ := FileSystem.exists_write_of_write hw (Utf8.encode t.fileText)
  rw [hs]
  simp only [saveFile, makeParent_of_write hm hw, hm, hfirst, hagain]

theorem ofFile_of_write {fs fs' : FileSystem} {p : Path} {s : Settings} (h : s.Acceptable)
    (hw : fs.write p (Utf8.encode s.fileText) = .ok fs') : fs'.exists? p = true ∧ ofFile fs' p = .ok s := by
  have hexists : fs'.exists? p = true := by
    rw [FileSystem.exists?, FileSystem.lookup_of_write hw]
    rfl
  refine ⟨hexists, ?_⟩
  rw [ofFile, if_pos hexists, FileSystem.readText_of_write hw]
  exact (ofText_fileText h.fitsWords).trans (congrArg Except.ok (resetTimeouts_eq_self h))

/-! ## Chosen values -/

/-- A file that settings can be read from and saved to holds the settings with the chosen values afterwards. -/
theorem exists_initFile {fs : FileSystem} {p : Path} {s : Settings} (hs : present fs p = .ok s) (hp : Savable fs p)
    (o : SettingsOptions) :
    ∃ fs', initFile fs p o = (.ok (s.withOptions o), fs') ∧ saveFile fs (s.withOptions o) p = (.ok (), fs') ∧
      fs'.readBytes p = .ok (Utf8.encode (s.withOptions o).fileText) ∧ ofFile fs' p = .ok (s.withOptions o) ∧
      present fs' p = .ok (s.withOptions o) := by
  obtain ⟨made, fs', hm, hw, hsave⟩ := hp.exists_write (s.withOptions o)
  obtain ⟨hexists, hread⟩ := ofFile_of_write ((acceptable_of_present hs).withOptions o) hw
  refine ⟨fs', ?_, hsave, FileSystem.readBytes_of_write hw, hread, ?_⟩
  · simp [initFile, hs, hsave]
  · rw [present, if_pos hexists, hread]

/-- Values put in after others make the same of a file as both together, put in once. -/
theorem initFile_initFile {fs : FileSystem} {p : Path} {s : Settings} (hs : present fs p = .ok s)
    (hp : Savable fs p) (o₁ o₂ : SettingsOptions) :
    initFile (initFile fs p o₁).2 p o₂ = initFile fs p (o₂.orElse o₁) := by
  obtain ⟨fs₁, hinit, hsave, -, -, hpresent⟩ := exists_initFile hs hp o₁
  have hagain : ∀ t, saveFile fs₁ t p = saveFile fs t p := by
    intro t
    rw [← hp.saveFile_saveFile (s.withOptions o₁) t, hsave]
  rw [hinit]
  simp only [initFile, hpresent, hs, hagain, withOptions_withOptions]

/-- Choosing values for a settings file in two runs is choosing them in one, the later ones first; choosing the same
again changes nothing; and the file holds the settings that come out of it. -/
theorem initFile_twice {fs : FileSystem} {p : Path} {s : Settings} (hs : present fs p = .ok s) (hp : Savable fs p)
    (o₁ o₂ : SettingsOptions) :
    ∃ t fs', initFile (initFile fs p o₁).2 p o₂ = (.ok t, fs') ∧ initFile fs p (o₂.orElse o₁) = (.ok t, fs') ∧
      t = s.withOptions (o₂.orElse o₁) ∧ fs'.readBytes p = .ok (Utf8.encode t.fileText) ∧ ofFile fs' p = .ok t ∧
      initFile (initFile fs p o₁).2 p o₁ = initFile fs p o₁ := by
  obtain ⟨fs', hinit, -, hbytes, hread, -⟩ := exists_initFile hs hp (o₂.orElse o₁)
  refine ⟨_, fs', (initFile_initFile hs hp o₁ o₂).trans hinit, hinit, rfl, hbytes, hread, ?_⟩
  simpa using initFile_initFile hs hp o₁ o₁

/-- A file that holds a time limit that is not acceptable, and keys that have to be escaped. -/
theorem initFile_twice_of_shortTimeout :
    let text := "\x7b\"provider\":\"auto\",\"copilot\":\x7b\"timeoutMs\":5\x7d,\"more\":null\x7d"
    let fs : FileSystem :=
      { entries := [(["conf"], .directory), (["conf", "ai.json"], .file (Utf8.encode text))] }
    let p : Path := ⟨"conf/ai.json"⟩
    let o₁ : SettingsOptions := { openaiKey := some "k\"\n", ollamaModel := some "m" }
    let o₂ : SettingsOptions := { openaiKey := some "é", provider := some (.single .openai) }
    present fs p = .ok { provider := .auto } ∧ Savable fs p ∧
      ∃ t fs', initFile (initFile fs p o₁).2 p o₂ = (.ok t, fs') ∧ initFile fs p (o₂.orElse o₁) = (.ok t, fs') ∧
        t = ({ provider := .auto } : Settings).withOptions (o₂.orElse o₁) ∧
        fs'.readBytes p = .ok (Utf8.encode t.fileText) ∧ ofFile fs' p = .ok t ∧
        initFile (initFile fs p o₁).2 p o₁ = initFile fs p o₁ := by
  intro text fs p o₁ o₂
  have hs : present fs p = .ok { provider := .auto } := by decide +kernel
  have hp : Savable fs p := by decide +kernel
  exact ⟨hs, hp, initFile_twice hs hp o₁ o₂⟩

end Settings

end NameAdvisor
