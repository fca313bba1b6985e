import NameAdvisor.Proofs.FileSystem.Write

/-!
# Directories that were made

Directories are made once: after that they are there, through whatever links, they stay when a file is written, and
making them again changes nothing.
-/

namespace NameAdvisor.FileSystem

/-- A walk that does not follow the last link ends at that link, or where one that follows it does. -/
theorem walk_unfollowed {fs : FileSystem} {links fuel : Nat} {start : Location} {steps : List Path.Component}
    {found : Location × Option Node} (h : fs.walk true links fuel start steps = .ok found) :
    fs.walk false links fuel start steps = .ok found ∨
      ∃ loc target, fs.walk false links fuel start steps = .ok (loc, some (.link target)) := by
  induction fuel generalizing links start steps with
  | zero =>
    cases steps with
    | nil => exact .inl h
    | cons step rest => cases step <;> cases h
  | succ fuel ih =>
    cases steps with
    | nil => exact .inl h
    | cons step rest =>
      cases step with
      | top => exact ih h
      | here => exact ih h
      | up => exact ih h
      | name name =>
        obtain ⟨hsize, ⟨rfl, rfl, hdir, hlink⟩ | ⟨hn, hgo⟩ | ⟨target, links, hn, -, rfl, hgo⟩⟩ := walk_name_cases h
        · left
          rw [walk, if_neg hsize]
          cases hn : fs.node? (start ++ [name]) with
          | none => rfl
          | some n =>
            cases n with
            | file content => rfl
            | directory => exact absurd hn hdir
            | link target => exact absurd (hlink target hn) (by simp)
        · rw [walk, if_neg hsize, hn]
          exact ih hgo
        · rw [walk, if_neg hsize, hn]
          cases rest with
          | nil => exact .inr ⟨_, target, rfl⟩
          | cons step rest => exact ih hgo

theorem resolve_unfollowed {fs : FileSystem} {p : Path} {found : Location × Option Node}
    (h : fs.resolve p true = .ok found) :
    fs.resolve p false = .ok found ∨ ∃ loc target, fs.resolve p false = .ok (loc, some (.link target)) := by
  obtain ⟨hp, hz, hgo⟩ := resolve_eq_ok_iff.mp h
  obtain hsame | ⟨loc, target, hlink⟩ := walk_unfollowed hgo
  · exact .inl (resolve_eq_ok_iff.mpr ⟨hp, hz, hsame⟩)
  · exact .inr ⟨loc, target, resolve_eq_ok_iff.mpr ⟨hp, hz, hlink⟩⟩

/-- Where a walk led to nothing, it leads to the directory that was made there, also when it follows links. -/
theorem walk_set_directory {fs : FileSystem} {made : Location} (hm : made ≠ []) (hfree : fs.node? made = none)
    {links fuel : Nat} {start : Location} {steps : List Path.Component}
    (h : fs.walk false links fuel start steps = .ok (made, none)) :
    (fs.set made .directory).walk true links fuel start steps = .ok (made, some .directory) := by
  -- on its way the walk meets directories and links only, which are as before
  have hother : ∀ {loc node}, fs.node? loc = some node → (fs.set made .directory).node? loc = some node := by
    intro loc node hn
    rw [node?_set fs hm, if_neg, hn]
    rintro rfl
    cases hn.symm.trans hfree
  have hend : ∀ {links fuel start}, fs.walk false links fuel start [] = .ok (made, none) →
      (fs.set made .directory).walk true links fuel start [] = .ok (made, some .directory) := by
    intro links fuel start he
    rw [walk] at he
    obtain ⟨rfl, -⟩ := Prod.mk.inj (Except.ok.inj he)
    simp [walk, node?_set fs hm]
  induction fuel generalizing links start steps with
  | zero =>
    cases steps with
    | nil => exact hend h
    | cons step rest => cases step <;> cases h
  | succ fuel ih =>
    cases steps with
    | nil => exact hend h
    | cons step rest =>
      cases step with
      | top => exact ih h
      | here => exact ih h
      | up => exact ih h
      | name name =>
        obtain ⟨hsize, ⟨rfl, hr, -, -⟩ | ⟨hn, hgo⟩ | ⟨target, links, hn, hrest, rfl, hgo⟩⟩ := walk_name_cases h
        · obtain ⟨rfl, -⟩ := Prod.mk.inj hr
          simp [walk, hsize, node?_set fs hm]
        · rw [walk, if_neg hsize, hother hn]
          exact ih hgo
        · rw [walk, if_neg hsize, hother hn]
          simp only [Bool.not_true, Bool.and_false, Bool.false_eq_true, if_false]
          exact ih hgo

theorem isDirectory_iff {fs : FileSystem} {p : Path} :
    fs.isDirectory p = true ↔ ∃ loc, fs.resolve p true = .ok (loc, some .directory) := by
  unfold isDirectory lookup
  cases hr : fs.resolve p true with
  | error e => simp
  | ok found =>
    obtain ⟨loc, node⟩ := found
    cases node with
    | none => simp
    | some node => cases node <;> simp

theorem exists_of_makeDirectory {fs fs' : FileSystem} {p : Path} (h : fs.makeDirectory p = .ok fs') :
    ∃ loc, fs.resolve p false = .ok (loc, none) ∧ fs.Writable loc ∧ fs' = fs.set loc .directory := by
  unfold makeDirectory at h
  split at h
  · cases h
  · cases h
  · next loc hr =>
    cases h
    have hfree := (node?_of_resolve hr).symm
    exact ⟨loc, hr, ⟨fun hl => by simp [hl, node?] at hfree, .inl hfree⟩, rfl⟩

theorem isDirectory_of_makeDirectory {fs fs' : FileSystem} {p : Path} (h : fs.makeDirectory p = .ok fs') :
    fs'.isDirectory p = true := by
  obtain ⟨loc, hr, hw, rfl⟩ := exists_of_makeDirectory h
  obtain ⟨hp, hz, hgo⟩ := resolve_eq_ok_iff.mp hr
  refine isDirectory_iff.mpr ⟨loc, resolve_eq_ok_iff.mpr ⟨hp, hz, ?_⟩⟩
  rw [walkFuel_set hw (by simp)]
  exact walk_set_directory hw.ne_nil (node?_of_resolve hr).symm hgo

theorem makeDirectory_of_isDirectory {fs : FileSystem} {p : Path} (h : fs.isDirectory p = true) :
    fs.makeDirectory p = .error .exists := by
  obtain ⟨loc, hr⟩ := isDirectory_iff.mp h
  rw [makeDirectory]
  obtain hsame | ⟨loc', target, hlink⟩ := resolve_unfollowed hr
  · rw [hsame]
  · rw [hlink]

/-- Making directories that are there changes nothing. -/
theorem makeDirectories_of_isDirectory {fs : FileSystem} {p : Path} (h : fs.isDirectory p = true) :
    fs.makeDirectories p = (.ok (), fs) := by
  unfold makeDirectories makeDirectoriesFrom
  simp [makeDirectory_of_isDirectory h, h]

/-- Directories that were made are there. -/
theorem isDirectory_of_makeDirectories {fs fs' : FileSystem} {p : Path} (hp : p.text.isEmpty = false)
    (h : fs.makeDirectories p = (.ok (), fs')) : fs'.isDirectory p = true := by
  unfold makeDirectories makeDirectoriesFrom at h
  rw [if_neg (by simp [hp])] at h
  split at h
  · next made hm =>
    cases h
    exact isDirectory_of_makeDirectory hm
  · split at h
    · split at h
      · cases h
      · split at h
        · next made hm =>
          cases h
          exact isDirectory_of_makeDirectory hm
        · split at h
          · next hd =>
            cases h
            exact hd
          · cases h
    · cases h
  · split at h
    · next hd =>
      cases h
      exact hd
    · cases h

theorem isDirectory_of_write {fs fs' : FileSystem} {p q : Path} {bytes : ByteArray} (hw : fs.write p bytes = .ok fs')
    (h : fs.isDirectory q = true) : fs'.isDirectory q = true := by
  obtain ⟨written, node, -, hfree, rfl⟩ := exists_of_write hw
  obtain ⟨loc, hr⟩ := isDirectory_iff.mp h
  have hne : loc ≠ written := hfree.ne_of_directory (node?_of_resolve hr).symm
  refine isDirectory_iff.mpr ⟨loc, ?_⟩
  rw [resolve_set hfree bytes hr, if_neg hne]

end NameAdvisor.FileSystem
