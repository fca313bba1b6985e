import NameAdvisor.Proofs.FileSystem.Apart
import NameAdvisor.Proofs.FileSystem.Directories

/-!
# What changes leave alone

Making directories adds directories where nothing stood, also when it fails half-way, and writing a file changes what
stands at one location.  All other files keep their places and their contents, and every path that led to one of them
leads to it still.

## Main definitions

* `FileSystem.AddsDirectories`: changes that make directories and nothing else.
* `FileSystem.KeepsFiles`: changes that leave all files alone but for one, if any.
-/

namespace NameAdvisor.FileSystem

/-! ## More directories -/

/-- What stands in `fs` stands in `fs'` too, where all that is new are directories. -/
structure AddsDirectories (fs fs' : FileSystem) : Prop where
  workingDirectory : fs'.workingDirectory = fs.workingDirectory
  walkFuel : ∀ p, fs'.walkFuel p = fs.walkFuel p
  kept : ∀ {loc node}, fs.node? loc = some node → fs'.node? loc = some node
  new : ∀ {loc node}, fs.node? loc = none → fs'.node? loc = some node → node = .directory

namespace AddsDirectories

variable {fs fs' fs'' : FileSystem}

theorem refl (fs : FileSystem) : fs.AddsDirectories fs :=
  ⟨rfl, fun _ => rfl, id, fun hn hs => by cases hn.symm.trans hs⟩

theorem trans (h₁ : fs.AddsDirectories fs') (h₂ : fs'.AddsDirectories fs'') : fs.AddsDirectories fs'' := by
  refine ⟨h₂.workingDirectory.trans h₁.workingDirectory, fun p => (h₂.walkFuel p).trans (h₁.walkFuel p),
    fun hn => h₂.kept (h₁.kept hn), ?_⟩
  intro loc node hnone hnew
  cases hn : fs'.node? loc with
  | none => exact h₂.new hn hnew
  | some made =>
    have he : made = node := Option.some.inj ((h₂.kept hn).symm.trans hnew)
    exact he ▸ h₁.new hnone hn

/-- A path that led to something leads there still. -/
theorem walk (h : fs.AddsDirectories fs') {follow : Bool} {links fuel : Nat} {start loc : Location}
    {steps : List Path.Component} {node : Node} (hw : fs.walk follow links fuel start steps = .ok (loc, some node)) :
    fs'.walk follow links fuel start steps = .ok (loc, some node) := by
  have hend : ∀ {start}, (loc, some node) = (start, fs.node? start) → fs'.node? start = some node ∧ loc = start := by
    intro start he
    obtain ⟨rfl, hn⟩ := Prod.mk.inj he
    exact ⟨h.kept hn.symm, rfl⟩
  induction fuel generalizing links start steps with
  | zero =>
    cases steps with
    | nil =>
      obtain ⟨hn, rfl⟩ := hend (Except.ok.inj hw).symm
      rw [FileSystem.walk, hn]
    | cons step rest => cases step <;> cases hw
  | succ fuel ih =>
    cases steps with
    | nil =>
      obtain ⟨hn, rfl⟩ := hend (Except.ok.inj hw).symm
      rw [FileSystem.walk, hn]
    | cons step rest =>
      cases step with
      | top => exact ih hw
      | here => exact ih hw
      | up => exact ih hw
      | name name =>
        obtain ⟨hsize, ⟨rfl, hr, hdir, hlink⟩ | ⟨hn, hgo⟩ | ⟨target, links, hn, hr, rfl, hgo⟩⟩ := walk_name_cases hw
        · obtain ⟨hn, rfl⟩ := hend hr
          have hold : fs.node? (start ++ [name]) = some node := (Prod.mk.inj hr).2.symm
          rw [FileSystem.walk, if_neg hsize, hn]
          cases node with
          | file content => rfl
          | directory => exact absurd hold hdir
          | link target => simp [hlink target hold]
        · rw [FileSystem.walk, if_neg hsize, h.kept hn]
          exact ih hgo
        · rw [FileSystem.walk, if_neg hsize, h.kept hn]
          simp only [hr]
          exact ih hgo

theorem resolve (h : fs.AddsDirectories fs') {p : Path} {follow : Bool} {loc : Location} {node : Node}
    (hr : fs.resolve p follow = .ok (loc, some node)) : fs'.resolve p follow = .ok (loc, some node) := by
  obtain ⟨hp, hz, hgo⟩ := resolve_eq_ok_iff.mp hr
  refine resolve_eq_ok_iff.mpr ⟨hp, hz, ?_⟩
  rw [h.walkFuel, h.workingDirectory]
  exact h.walk hgo

end AddsDirectories

theorem addsDirectories_of_makeDirectory {fs fs' : FileSystem} {p : Path} (h : fs.makeDirectory p = .ok fs') :
    fs.AddsDirectories fs' := by
  obtain ⟨loc, hr, hw, rfl⟩ := exists_of_makeDirectory h
  have hfree := (node?_of_resolve hr).symm
  refine ⟨rfl, walkFuel_set hw (by simp), ?_, ?_⟩
  · intro other node hn
    rw [node?_set fs hw.ne_nil, if_neg, hn]
    rintro rfl
    cases hfree.symm.trans hn
  · intro other node hn hnew
    rw [node?_set fs hw.ne_nil] at hnew
    split at hnew
    · exact (Option.some.inj hnew).symm
    · cases hn.symm.trans hnew

/-- Making directories adds directories only, whether it succeeds or not. -/
theorem addsDirectories_makeDirectoriesFrom (fs : FileSystem) (fuel : Nat) (p : Path) :
    fs.AddsDirectories (fs.makeDirectoriesFrom fuel p).2 := by
  fun_induction makeDirectoriesFrom fs fuel p with
  | case1 | case7 | case8 | case9 => exact .refl _
  | case2 _ _ _ made hm => exact addsDirectories_of_makeDirectory hm
  | case3 _ _ _ _ _ _ _ above habove ih => rwa [habove] at ih
  | case4 _ _ _ _ _ _ above habove made hm ih =>
    rw [habove] at ih
    exact ih.trans (addsDirectories_of_makeDirectory hm)
  | case5 _ _ _ _ _ _ above habove _ _ _ ih => rwa [habove] at ih
  | case6 _ _ _ _ _ _ above habove _ _ _ ih => rwa [habove] at ih

theorem addsDirectories_makeDirectories (fs : FileSystem) (p : Path) : fs.AddsDirectories (fs.makeDirectories p).2 :=
  addsDirectories_makeDirectoriesFrom fs _ p

/-! ## The same files -/

/-- No file was changed, made or taken away, but for the one at `spared`, if any; and what was read from the others by
some path is read from them still. -/
structure KeepsFiles (spared : Option Location) (fs fs' : FileSystem) : Prop where
  files : ∀ loc content, some loc ≠ spared →
    (fs'.node? loc = some (.file content) ↔ fs.node? loc = some (.file content))
  reads : ∀ p content, fs.leadsTo? p ≠ spared → fs.readBytes p = .ok content → fs'.readBytes p = .ok content

/-- What is read by a path is the content of the file that it leads to. -/
theorem readBytes_eq_ok_iff {fs : FileSystem} {p : Path} {content : ByteArray} :
    fs.readBytes p = .ok content ↔ ∃ loc, fs.resolve p true = .ok (loc, some (.file content)) := by
  unfold readBytes
  cases hr : fs.resolve p true with
  | error e => simp
  | ok found =>
    obtain ⟨loc, node⟩ := found
    cases node with
    | none => simp
    | some node => cases node <;> simp

namespace AddsDirectories

variable {fs made : FileSystem} (h : fs.AddsDirectories made)
include h

theorem node?_eq_file_iff {loc : Location} {content : ByteArray} :
    made.node? loc = some (.file content) ↔ fs.node? loc = some (.file content) := by
  refine ⟨fun hm => ?_, h.kept⟩
  cases hn : fs.node? loc with
  | none => cases h.new hn hm
  | some node => exact (h.kept hn).symm.trans hm

theorem keepsFiles : KeepsFiles none fs made where
  files _ _ _ := h.node?_eq_file_iff
  reads p content _ hr := by
    obtain ⟨loc, hloc⟩ := readBytes_eq_ok_iff.mp hr
    exact readBytes_eq_ok_iff.mpr ⟨loc, h.resolve hloc⟩

/-- Writing a file after directories were made for it leaves all other files alone. -/
theorem keepsFiles_write {written : FileSystem} {p : Path} {bytes : ByteArray}
    (hwrite : made.write p bytes = .ok written) :
    ∃ loc, written.leadsTo? p = some loc ∧ KeepsFiles (some loc) fs written := by
  obtain ⟨loc, node, hr, hw, rfl⟩ := exists_of_write hwrite
  refine ⟨loc, leadsTo?_of_resolve (resolve_set hw bytes hr), ?_, ?_⟩
  · intro other content hne
    rw [node?_set made hw.ne_nil, if_neg (by simpa using hne)]
    exact h.node?_eq_file_iff
  · intro q content hne hq
    obtain ⟨other, ho⟩ := readBytes_eq_ok_iff.mp hq
    rw [leadsTo?_of_resolve ho] at hne
    refine readBytes_eq_ok_iff.mpr ⟨other, ?_⟩
    rw [resolve_set hw bytes (h.resolve ho), if_neg (by simpa using hne)]

end AddsDirectories

end NameAdvisor.FileSystem
