import NameAdvisor.Proofs.FileSystem.Write
import NameAdvisor.DecisionLog
import NameAdvisor.Source.Analysis

/-!
# What a log leaves alone

Writing a file changes no other: every path leads where it led before, or nowhere as before, so that files that do not
stand where a log is written are analysed as they were, however much is logged.

## Main definitions

* `FileSystem.leadsTo?`: the location that a path leads to.
* `DecisionLog.Apart`: logs that are not written to one of some files.
-/

namespace NameAdvisor

namespace FileSystem

/-- The location that `p` leads to through links, whether something stands there or not. -/
def leadsTo? (fs : FileSystem) (p : Path) : Option Location :=
  (fs.resolve p true).toOption.map (·.1)

theorem leadsTo?_of_resolve {fs : FileSystem} {p : Path} {loc : Location} {node : Option Node}
    (h : fs.resolve p true = .ok (loc, node)) : fs.leadsTo? p = some loc := by
  simp [leadsTo?, h, Except.toOption]

/-- Writing a file opens no way to a walk that leads nowhere. -/
theorem exists_walk_set_error {fs : FileSystem} {written : Location} (hw : fs.Writable written) (content : ByteArray)
    {follow : Bool} {links fuel : Nat} {start : Location} {steps : List Path.Component} {e : Error}
    (h : fs.walk follow links fuel start steps = .error e) :
    ∃ e', (fs.set written (.file content)).walk follow links fuel start steps = .error e' := by
  -- a walk ends early at `written` whether there is a file or nothing
  induction fuel generalizing links start steps with
  | zero =>
    cases steps with
    | nil => cases h
    | cons step rest => cases step <;> exact ⟨_, rfl⟩
  | succ fuel ih =>
    cases steps with
    | nil => cases h
    | cons step rest =>
      cases step with
      | top => exact ih h
      | here => exact ih h
      | up => exact ih h
      | name name =>
        rw [walk] at h ⊢
        rw [node?_set _ hw.ne_nil]
        split at h
        · next hsize => exact ⟨_, if_pos hsize⟩
        · next hsize =>
          rw [if_neg hsize]
          split at h
          · next hn =>
            split at h
            · cases h
            · next hr => by_cases heq : start ++ [name] = written <;> simp [heq, hn, hr]
          · next hn =>
            rw [if_neg (hw.ne_of_directory hn), hn]
            exact ih h
          · next old hn =>
            split at h
            · cases h
            · next hr => by_cases heq : start ++ [name] = written <;> simp [heq, hn, hr]
          · next target hn =>
            rw [if_neg (hw.ne_of_link hn), hn]
            split at h
            · cases h
            · next hr =>
              simp only [hr]
              cases links with
              | zero => exact ⟨_, rfl⟩
              | succ links => exact ih h

theorem exists_resolve_set_error {fs : FileSystem} {written : Location} (hw : fs.Writable written) (content : ByteArray)
    {p : Path} {follow : Bool} {e : Error} (h : fs.resolve p follow = .error e) :
    ∃ e', (fs.set written (.file content)).resolve p follow = .error e' := by
  unfold resolve at h ⊢
  split
  · exact ⟨_, rfl⟩
  · next hp =>
    rw [if_neg hp] at h
    split
    · exact ⟨_, rfl⟩
    · next hz =>
      rw [if_neg hz] at h
      rw [walkFuel_set hw (by simp)]
      exact exists_walk_set_error hw content h

/-- Where a path leads is not changed by writing a file. -/
theorem leadsTo?_set {fs : FileSystem} {written : Location} (hw : fs.Writable written) (content : ByteArray)
    (p : Path) : (fs.set written (.file content)).leadsTo? p = fs.leadsTo? p := by
  unfold leadsTo?
  cases hr : fs.resolve p true with
  | ok found =>
    obtain ⟨loc, node⟩ := found
    rw [resolve_set hw content hr]
    rfl
  | error e =>
    obtain ⟨e', he⟩ := exists_resolve_set_error hw content hr
    rw [he]
    rfl

/-- A file that stands elsewhere is read as before. -/
theorem readText_set {fs : FileSystem} {written : Location} (hw : fs.Writable written) (content : ByteArray) {p : Path}
    (h : fs.leadsTo? p ≠ some written) :
    ((fs.set written (.file content)).readText p).toOption = (fs.readText p).toOption := by
  unfold leadsTo? at h
  unfold readText readBytes
  cases hr : fs.resolve p true with
  | ok found =>
    obtain ⟨loc, node⟩ := found
    have hne : loc ≠ written := by
      rintro rfl
      simp [hr, Except.toOption] at h
    rw [resolve_set hw content hr, if_neg hne]
  | error e =>
    obtain ⟨e', he⟩ := exists_resolve_set_error hw content hr
    rw [he]
    rfl

end FileSystem

theorem Analysis.ofFile_set {fs : FileSystem} {written : Location} (hw : fs.Writable written) (content : ByteArray)
    {p : Path} (h : fs.leadsTo? p ≠ some written) :
    (ofFile (fs.set written (.file content)) p).toOption = (ofFile fs p).toOption := by
  have htext := FileSystem.readText_set hw content h
  unfold ofFile
  cases SourceLanguage.ofPath? p with
  | none => rfl
  | some language =>
    cases hr : fs.readText p <;> cases hr' : (fs.set written (.file content)).readText p <;>
      simp_all [Except.toOption]

namespace DecisionLog

/-- The log is not written to one of `files`: none of its candidates leads where one of them does. -/
def Apart (log : DecisionLog) (fs : FileSystem) (files : List Path) : Prop :=
  ∀ c ∈ log.candidates, ∀ p ∈ files, ∀ loc, fs.leadsTo? c = some loc → fs.leadsTo? p ≠ some loc

theorem apart_iff {log : DecisionLog} {fs : FileSystem} {files : List Path} : log.Apart fs files ↔
    ∀ c ∈ log.candidates, ∀ p ∈ files, fs.leadsTo? c = none ∨ fs.leadsTo? p ≠ fs.leadsTo? c := by
  refine forall₂_congr fun c _ => forall₂_congr fun p _ => ?_
  cases fs.leadsTo? c <;> simp

instance (log : DecisionLog) (fs : FileSystem) (files : List Path) : Decidable (log.Apart fs files) :=
  decidable_of_iff _ apart_iff.symm

/-- What is added to a log is written to the file of one of its candidates. -/
theorem exists_of_appendTo {fs fs' : FileSystem} {text : String} {candidates : List Path} {p : Path}
    (h : appendTo fs text candidates = some (p, fs')) :
    ∃ c ∈ candidates, ∃ loc content, fs.leadsTo? c = some loc ∧ fs.Writable loc ∧ fs' = fs.set loc (.file content) := by
  induction candidates with
  | nil => cases h
  | cons c rest ih =>
    rw [appendTo] at h
    split at h
    · next fs'' ha =>
      obtain ⟨rfl, rfl⟩ : c = p ∧ fs'' = fs' := by simpa using h
      obtain ⟨loc, node, content, hr, hw, hs⟩ := FileSystem.exists_of_append ha
      exact ⟨c, List.mem_cons_self, loc, content, FileSystem.leadsTo?_of_resolve hr, hw, hs⟩
    · obtain ⟨c', hc, hrest⟩ := ih h
      exact ⟨c', List.mem_cons_of_mem _ hc, hrest⟩

variable {log : DecisionLog} {fs : FileSystem} {files : List Path}

theorem Apart.mono (h : log.Apart fs files) {files' : List Path} (hs : files' ⊆ files) : log.Apart fs files' :=
  fun c hc p hp => h c hc p (hs hp)

/-- Logging a decision leaves files that stand apart from the log as they were. -/
theorem Apart.record (h : log.Apart fs files) (d : Decision) :
    log.Apart (log.record fs d).2 files ∧
      ∀ p ∈ files, (Analysis.ofFile (log.record fs d).2 p).toOption = (Analysis.ofFile fs p).toOption := by
  unfold DecisionLog.record
  cases ha : appendTo fs d.entry log.candidates with
  | none => exact ⟨h, fun _ _ => rfl⟩
  | some written =>
    obtain ⟨p, fs'⟩ := written
    obtain ⟨c, hc, loc, content, hl, hw, rfl⟩ := exists_of_appendTo ha
    refine ⟨?_, fun p hp => Analysis.ofFile_set hw content (h c hc p hp loc hl)⟩
    intro c' hc' p hp loc' hl'
    rw [FileSystem.leadsTo?_set hw] at hl' ⊢
    exact h c' hc' p hp loc' hl'

end DecisionLog

end NameAdvisor
