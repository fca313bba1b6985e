import NameAdvisor.CommandLine.Session
import NameAdvisor.Proofs.FileSystem.Kept
import NameAdvisor.Proofs.Settings.Operations
import NameAdvisor.Proofs.Settings.Precedence

/-!
# Settings files and all other files

Values are put into a settings file only if the present one yields settings; then the directories above it are made, and
the file is written last.  So a file that yields none is left as it is, no failure changes any file, and success changes
no other one.  Reading, loading and showing settings change nothing.

## Main definitions

* `Settings.InitEnds`: how putting values into a settings file can end.
* `Settings.Operation.isLook`: operations that only look at files.
-/

namespace NameAdvisor

namespace Settings

variable {fs fs' : FileSystem} {p : Path}

/-! ## Saving -/

theorem addsDirectories_makeParent (fs : FileSystem) (p : Path) : fs.AddsDirectories (makeParent fs p).2 := by
  unfold makeParent
  split
  · next parent _ =>
    split
    · exact .refl fs
    · exact FileSystem.addsDirectories_makeDirectories fs parent
  · exact .refl fs

theorem Savable.of_saveFile {s : Settings} (h : saveFile fs s p = (.ok (), fs')) : Savable fs p := by
  unfold saveFile at h
  split at h
  · cases h
  · next made hmade =>
    split at h
    · cases h
    · next hwrite =>
      unfold FileSystem.write at hwrite
      obtain ⟨opened, hopened, -⟩ := Json.map_eq_ok_iff.mp hwrite
      exact ⟨made, opened, hmade, hopened⟩

/-- Saving settings fails only if the directories above the file cannot be made, or the file cannot be opened; then no
file was changed. -/
theorem exists_of_saveFile_error {s : Settings} {e : SettingsError} (h : saveFile fs s p = (.error e, fs')) :
    ∃ cause, e = .access cause ∧ ¬ Savable fs p ∧ FileSystem.KeepsFiles none fs fs' := by
  have hsavable : ¬ Savable fs p := by
    intro hs
    obtain ⟨_, _, -, -, hsave⟩ := hs.exists_write s
    cases hsave.symm.trans h
  have hparent := addsDirectories_makeParent fs p
  unfold saveFile at h
  split at h
  · next cause made hmade =>
    cases h
    rw [hmade] at hparent
    exact ⟨cause, rfl, hsavable, hparent.keepsFiles⟩
  · next made hmade =>
    rw [hmade] at hparent
    split at h
    · next cause _ =>
      cases h
      exact ⟨cause, rfl, hsavable, hparent.keepsFiles⟩
    · cases h

theorem exists_of_saveFile_ok {s : Settings} (h : saveFile fs s p = (.ok (), fs')) :
    ∃ loc, fs'.leadsTo? p = some loc ∧ FileSystem.KeepsFiles (some loc) fs fs' := by
  have hparent := addsDirectories_makeParent fs p
  unfold saveFile at h
  split at h
  · cases h
  · next made hmade =>
    rw [hmade] at hparent
    split at h
    · cases h
    · next hwrite =>
      cases h
      exact hparent.keepsFiles_write hwrite

/-! ## Choosing -/

/-- How putting values into the settings file `p` ends, and what has become of the files then. -/
inductive InitEnds (fs : FileSystem) (p : Path) : Except InitError Settings → FileSystem → Prop
  /-- There is a file that yields no settings, for the reason that reading it gives.  Nothing was changed. -/
  | unread {cause : SettingsError} (he : fs.exists? p = true) (hb : Broken fs p) (hc : ofFile fs p = .error cause) :
      InitEnds fs p (.error (.cannotRead p cause)) fs
  /-- The file cannot be opened, or a directory above it cannot be made.  No file was changed. -/
  | unsaved {cause : FileSystem.Error} {fs' : FileSystem} (hr : fs.exists? p = true → ¬ Broken fs p)
      (hs : ¬ Savable fs p) (hk : FileSystem.KeepsFiles none fs fs') :
      InitEnds fs p (.error (.cannotWrite p (.access cause))) fs'
  /-- The file was written.  No file was changed but the one that the path leads to. -/
  | saved {s : Settings} {fs' : FileSystem} {loc : Location} (hr : fs.exists? p = true → ¬ Broken fs p)
      (hs : Savable fs p) (hl : fs'.leadsTo? p = some loc) (hk : FileSystem.KeepsFiles (some loc) fs fs') :
      InitEnds fs p (.ok s) fs'

theorem not_broken_of_present {s : Settings} (h : present fs p = .ok s) (he : fs.exists? p = true) : ¬ Broken fs p := by
  rw [present, if_pos he] at h
  exact fun hb => hb.ofFile_ne_ok he s h

theorem exists_broken_of_present {cause : SettingsError} (h : present fs p = .error cause) :
    fs.exists? p = true ∧ Broken fs p ∧ ofFile fs p = .error cause := by
  unfold present at h
  split at h
  · next he =>
    refine ⟨he, (ofFile_or_broken he).resolve_left ?_, h⟩
    rintro ⟨s, hs⟩
    cases h.symm.trans hs
  · cases h

theorem initFile_ends (fs : FileSystem) (p : Path) (o : SettingsOptions) :
    InitEnds fs p (initFile fs p o).1 (initFile fs p o).2 := by
  unfold initFile
  split
  · next hpresent =>
    obtain ⟨he, hb, hc⟩ := exists_broken_of_present hpresent
    exact .unread he hb hc
  · next hpresent =>
    have hr := not_broken_of_present hpresent
    split
    · next hsave =>
      obtain ⟨cause, rfl, hs, hk⟩ := exists_of_saveFile_error hsave
      exact .unsaved hr hs hk
    · next hsave =>
      obtain ⟨loc, hl, hk⟩ := exists_of_saveFile_ok hsave
      exact .saved hr (.of_saveFile hsave) hl hk

/-! ## Looking -/

/-- Whether the operation only looks at files. -/
def Operation.isLook : Operation → Bool
  | .read _ | .load _ _ => true
  | .init _ _ | .save _ _ | .write _ _ => false

theorem Operation.perform_of_isLook {op : Operation} (h : op.isLook = true) (fs : FileSystem) :
    (op.perform fs).2 = fs := by
  cases op with
  | read p => rfl
  | load candidates env => rfl
  | init p options => cases h
  | save s p => cases h
  | write p content => cases h

/-- Whatever is done with settings files, looking at them in between makes no difference to the files. -/
theorem performAll_filter_isLook (fs : FileSystem) (ops : List Operation) :
    (performAll fs (ops.filter (!·.isLook))).2 = (performAll fs ops).2 := by
  induction ops generalizing fs with
  | nil => rfl
  | cons op ops ih =>
    rw [performAll_cons]
    by_cases hl : op.isLook = true
    · rw [List.filter_cons_of_neg (by simp [hl]), ih, Operation.perform_of_isLook hl]
    · rw [List.filter_cons_of_pos (by simpa using hl), performAll_cons]
      exact ih _

/-- Putting values into a settings file that yields no settings fails for the reason that reading it gives, and changes
nothing; where the file cannot be written, no file is changed; and else no file is changed but that one.  Nothing that is
read or loaded in between, and no showing of settings, makes a difference to any file. -/
theorem initFile_keeps_files :
    (∀ fs p o, InitEnds fs p (initFile fs p o).1 (initFile fs p o).2) ∧
      (∀ fs ops, (performAll fs (ops.filter (!·.isLook))).2 = (performAll fs ops).2) ∧
      ∀ w check, (Session.carryOut w (.showSettings check)).2.fileSystem = w.fileSystem :=
  ⟨initFile_ends, performAll_filter_isLook, fun _ _ => rfl⟩

/-- A file stands where a directory would have to be made. -/
example :
    let fs : FileSystem := { entries := [(["conf"], .file (Utf8.encode "x"))] }
    let failed := initFile fs ⟨"conf/ai.json"⟩ { openaiKey := some "k" }
    failed.1 = .error (.cannotWrite ⟨"conf/ai.json"⟩ (.access .exists)) ∧
      failed.2.readText ⟨"conf"⟩ = .ok "x" := by
  decide +kernel

end Settings

end NameAdvisor
