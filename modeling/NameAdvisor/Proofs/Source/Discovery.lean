import Mathlib.Data.List.Sort
import Mathlib.Data.List.TakeWhile
import NameAdvisor.Proofs.FileSystem.Directories
import NameAdvisor.Proofs.FileSystem.Entries
import NameAdvisor.Proofs.FileSystem.Order
import NameAdvisor.Source.Analysis
import NameAdvisor.Source.Discovery

/-!
# The files that are found

The source files below a directory are found, each once and in the order of their paths: all that can be reached through
so many directories, and nothing else.

## Main definitions

* `Discovery.IsSourceName`: the names of source files.
* `Discovery.Reaches`: directories that lead to a source file.
-/

namespace NameAdvisor.Discovery

open FileSystem

/-! ## Source files -/

/-- The extensions of source files. -/
def sourceExtensions : List String :=
  ["js", "jsx", "mjs", "cjs", "ts", "tsx", "mts", "cts"]

/-- The name is that of a source file: something, a point, and one of the extensions in whatever case. -/
def IsSourceName (name : String) : Prop :=
  ∃ stem ext, stem ≠ "" ∧ name = stem ++ "." ++ ext ∧ Text.asciiLowered ext ∈ sourceExtensions

theorem isSome_ofExtension?_iff {ext : String} :
    (SourceLanguage.ofExtension? ext).isSome = true ↔ Text.asciiLowered ext ∈ sourceExtensions := by
  simp [SourceLanguage.ofExtension?, List.lookup_isSome_iff, SourceLanguage.extensions, sourceExtensions]

theorem point_notMem {ext : String} (h : Text.asciiLowered ext ∈ sourceExtensions) : '.' ∉ ext.toList := by
  have hall : sourceExtensions.all (fun e => !e.toList.contains '.') = true := by decide
  have hnone := List.all_eq_true.mp hall _ h
  intro hm
  have hlowered : '.' ∈ (Text.asciiLowered ext).toList := by
    simpa [Text.asciiLowered] using ⟨'.', hm, rfl⟩
  simp [hlowered] at hnone

/-- The extension of a path is what follows the last point of its name. -/
theorem extension?_eq_some_iff {p : Path} {name ext : String} (hp : p.fileName? = some name) :
    p.extension? = some ext ↔ '.' ∉ ext.toList ∧ ∃ stem, stem ≠ "" ∧ name = stem ++ "." ++ ext := by
  rw [Path.extension?, hp, Option.bind_some]
  simp only
  constructor
  · intro h
    have hwhole := List.takeWhile_append_dropWhile (p := (· ≠ '.')) (l := name.toList.reverse)
    have hafter : '.' ∉ name.toList.reverse.takeWhile (· ≠ '.') := fun hm => by simpa using List.mem_takeWhile_imp hm
    have hpoint := List.head?_dropWhile_not (· ≠ '.') name.toList.reverse
    generalize name.toList.reverse.takeWhile (· ≠ '.') = after at *
    generalize name.toList.reverse.dropWhile (· ≠ '.') = rest at *
    cases rest with
    | nil => cases h
    | cons point before =>
      obtain rfl : point = '.' := by simpa using hpoint
      obtain ⟨hbefore, rfl⟩ : before ≠ [] ∧ String.ofList after.reverse = ext := by simpa using h
      refine ⟨by simpa using hafter, String.ofList before.reverse, by simpa using hbefore, ?_⟩
      rw [← String.toList_inj, ← List.reverse_inj, ← hwhole]
      simp
  · rintro ⟨hext, stem, hstem, rfl⟩
    have hreverse : (stem ++ "." ++ ext).toList.reverse = ext.toList.reverse ++ '.' :: stem.toList.reverse := by simp
    have hall : ∀ c ∈ ext.toList.reverse, decide (c ≠ '.') = true := by
      intro c hc
      have hne : c ≠ '.' := fun he => hext (he ▸ List.mem_reverse.mp hc)
      simpa using hne
    rw [hreverse, List.takeWhile_append_of_pos hall, List.dropWhile_append_of_pos hall]
    simp [hstem]

theorem isSource_iff {p : Path} {name : String} (hp : p.fileName? = some name) :
    isSource p = true ↔ IsSourceName name := by
  rw [isSource, SourceLanguage.ofPath?, Option.isSome_bind, Option.any_eq_true]
  constructor
  · rintro ⟨ext, hext, hlanguage⟩
    obtain ⟨-, stem, hstem, hname⟩ := (extension?_eq_some_iff hp).mp hext
    exact ⟨stem, ext, hstem, hname, isSome_ofExtension?_iff.mp hlanguage⟩
  · rintro ⟨stem, ext, hstem, hname, hext⟩
    exact ⟨ext, (extension?_eq_some_iff hp).mpr ⟨point_notMem hext, stem, hstem, hname⟩,
      isSome_ofExtension?_iff.mpr hext⟩

theorem isSource_join {p : Path} {name : String} (hp : p.text.isEmpty = false) (h : IsName name) :
    isSource (p.join ⟨name⟩) = true ↔ IsSourceName name :=
  isSource_iff (by simp [Path.fileName?, Path.components_join hp h])

/-! ## Files below a directory -/

theorem isSkipped_eq_false_iff {name : String} :
    isSkipped name = false ↔ name ≠ "node_modules" ∧ name.toList.head? ≠ some '.' := by
  simp [isSkipped, and_comm]

/-- From the directory at `loc` the directories `dirs`, none of which is passed over, lead to the source file `name`. -/
structure Reaches (fs : FileSystem) (loc : Location) (dirs : List String) (name : String) : Prop where
  descends : fs.Descends loc dirs
  entered : ∀ dir ∈ dirs, dir ≠ "node_modules" ∧ dir.toList.head? ≠ some '.'
  isFile : ∃ content, fs.node? (loc ++ dirs ++ [name]) = some (.file content)
  isSource : IsSourceName name

variable {fs : FileSystem} {loc : Location} {dirs : List String} {name : String} {root : Path}

theorem reaches_nil : Reaches fs loc [] name ↔
    (∃ content, fs.node? (loc ++ [name]) = some (.file content)) ∧ IsSourceName name := by
  constructor
  · intro h
    exact ⟨by simpa using h.isFile, h.isSource⟩
  · rintro ⟨hfile, hsource⟩
    exact ⟨descends_nil fs loc, by simp, by simpa using hfile, hsource⟩

theorem reaches_cons {dir : String} : Reaches fs loc (dir :: dirs) name ↔
    fs.node? (loc ++ [dir]) = some .directory ∧ isSkipped dir = false ∧ Reaches fs (loc ++ [dir]) dirs name := by
  constructor
  · intro h
    obtain ⟨hdir, hdescends⟩ := descends_cons.mp h.descends
    obtain ⟨hentered, hrest⟩ := List.forall_mem_cons.mp h.entered
    exact ⟨hdir, isSkipped_eq_false_iff.mpr hentered, hdescends, hrest, by simpa using h.isFile, h.isSource⟩
  · rintro ⟨hdir, hentered, h⟩
    exact ⟨descends_cons.mpr ⟨hdir, h.descends⟩,
      List.forall_mem_cons.mpr ⟨isSkipped_eq_false_iff.mp hentered, h.entered⟩, by simpa using h.isFile, h.isSource⟩

theorem Reaches.isName (hfs : fs.Proper) (h : Reaches fs loc dirs name) : ∀ n ∈ dirs ++ [name], IsName n := by
  obtain ⟨content, hfile⟩ := h.isFile
  intro n hn
  refine hfs.isName_of_node? hfile ?_
  rw [List.append_assoc]
  exact List.mem_append_right _ hn

/-- The files that an entry of the directory at `loc` is or, if it is a directory, has below it. -/
def filesAt (fs : FileSystem) (levels : Nat) (loc : Location) (root : Path) (entry : String × Node) : List Path :=
  let p := root.join ⟨entry.1⟩
  match entry.2 with
  | .file _ => if isSource p then [p] else []
  | .directory => if isSkipped entry.1 then [] else filesBelow fs levels (loc ++ [entry.1]) p
  | .link _ => []

theorem filesBelow_succ (fs : FileSystem) (levels : Nat) (loc : Location) (root : Path) :
    filesBelow fs (levels + 1) loc root = (fs.children loc).flatMap (filesAt fs levels loc root) :=
  rfl

theorem mem_filesAt_iff {levels : Nat} {node : Node} {p : Path} : p ∈ filesAt fs levels loc root (name, node) ↔
    (∃ content, node = .file content) ∧ isSource (root.join ⟨name⟩) = true ∧ p = root.join ⟨name⟩ ∨
      node = .directory ∧ isSkipped name = false ∧ p ∈ filesBelow fs levels (loc ++ [name]) (root.join ⟨name⟩) := by
  cases node <;> simp [filesAt]

/-- The files in a directory and in those within it are the source files that are reached through fewer directories
than there are levels. -/
theorem mem_filesBelow_iff (hfs : fs.Proper) {levels : Nat} (hp : root.text.isEmpty = false) {p : Path} :
    p ∈ filesBelow fs levels loc root ↔
      ∃ dirs name, dirs.length < levels ∧ Reaches fs loc dirs name ∧ p = root.below (dirs ++ [name]) := by
  induction levels generalizing loc root with
  | zero => simp [filesBelow]
  | succ levels ih =>
    rw [filesBelow_succ, List.mem_flatMap]
    constructor
    · rintro ⟨⟨name, node⟩, hentry, hmem⟩
      rw [mem_children_iff hfs] at hentry
      have hname : IsName name := hfs.isName_of_node? hentry (by simp)
      obtain ⟨⟨content, rfl⟩, hsource, rfl⟩ | ⟨rfl, hentered, hmem⟩ := mem_filesAt_iff.mp hmem
      · exact ⟨[], name, by simp, reaches_nil.mpr ⟨⟨content, hentry⟩, (isSource_join hp hname).mp hsource⟩, rfl⟩
      · obtain ⟨dirs, last, hlen, hreaches, rfl⟩ := (ih (Path.text_join_ne_empty hp hname)).mp hmem
        exact ⟨name :: dirs, last, by simpa using hlen, reaches_cons.mpr ⟨hentry, hentered, hreaches⟩, rfl⟩
    · rintro ⟨dirs, name, hlen, hreaches, rfl⟩
      have hnames := hreaches.isName hfs
      cases dirs with
      | nil =>
        obtain ⟨⟨content, hfile⟩, hsource⟩ := reaches_nil.mp hreaches
        have hsource := (isSource_join hp (hnames name (by simp))).mpr hsource
        exact ⟨(name, .file content), (mem_children_iff hfs).mpr hfile,
          mem_filesAt_iff.mpr (.inl ⟨⟨content, rfl⟩, hsource, rfl⟩)⟩
      | cons dir dirs =>
        obtain ⟨hdir, hentered, hreaches⟩ := reaches_cons.mp hreaches
        have hmem := (ih (Path.text_join_ne_empty hp (hnames dir (by simp)))).mpr
          ⟨dirs, name, by simpa using hlen, hreaches, rfl⟩
        exact ⟨(dir, .directory), (mem_children_iff hfs).mpr hdir, mem_filesAt_iff.mpr (.inr ⟨rfl, hentered, hmem⟩)⟩

/-- The parts of the files at an entry start with those of the directory and the name of the entry. -/
theorem exists_components_of_mem_filesAt (hfs : fs.Proper) (hp : root.text.isEmpty = false) {levels : Nat}
    {entry : String × Node} (hentry : entry ∈ fs.children loc) {p : Path} (h : p ∈ filesAt fs levels loc root entry) :
    ∃ more, p.components = root.components ++ .name entry.1 :: more := by
  have hname : IsName entry.1 := hfs.isName_of_node? ((mem_children_iff hfs).mp hentry) (by simp)
  obtain ⟨-, -, rfl⟩ | ⟨-, -, hmem⟩ := mem_filesAt_iff.mp h
  · exact ⟨[], Path.components_join hp hname⟩
  · have hjoin := Path.text_join_ne_empty hp hname
    obtain ⟨dirs, last, -, hreaches, rfl⟩ := (mem_filesBelow_iff hfs hjoin).mp hmem
    refine ⟨(dirs ++ [last]).map .name, ?_⟩
    rw [Path.components_below hjoin (hreaches.isName hfs), Path.components_join hp hname]
    simp

/-- No two files below a directory have the same parts. -/
theorem pairwise_filesBelow (hfs : fs.Proper) {levels : Nat} (hp : root.text.isEmpty = false) :
    (filesBelow fs levels loc root).Pairwise fun p q => p.components ≠ q.components := by
  induction levels generalizing loc root with
  | zero => exact List.Pairwise.nil
  | succ levels ih =>
    rw [filesBelow_succ, List.pairwise_flatMap]
    constructor
    · rintro ⟨name, node⟩ hentry
      have hname : IsName name := hfs.isName_of_node? ((mem_children_iff hfs).mp hentry) (by simp)
      cases node with
      | file content =>
        by_cases hsource : isSource (root.join ⟨name⟩) = true <;> simp [filesAt, hsource]
      | directory =>
        cases hskipped : isSkipped name with
        | true => simp [filesAt, hskipped]
        | false => simpa [filesAt, hskipped] using ih (Path.text_join_ne_empty hp hname)
      | link target => exact List.Pairwise.nil
    · refine (pairwise_children hfs loc).imp_of_mem ?_
      intro a b ha hb hne p hmemp q hmemq heq
      -- files at two entries differ in the part that is the name of the entry
      obtain ⟨more, hmore⟩ := exists_components_of_mem_filesAt hfs hp ha hmemp
      obtain ⟨more', hmore'⟩ := exists_components_of_mem_filesAt hfs hp hb hmemq
      rw [hmore, hmore', List.append_cancel_left_eq] at heq
      exact hne (by simpa using (List.cons.inj heq).1)

/-! ## Files that are found -/

/-- A search of a directory finds the files below it, down to one level more than the directories it goes through. -/
theorem unordered_of_directory (hroot : fs.resolve root true = .ok (loc, some .directory)) (maxDepth : Nat) :
    unordered fs root maxDepth = filesBelow fs (levels maxDepth) loc root := by
  unfold unordered
  obtain hsame | ⟨link, target, hlink⟩ := resolve_unfollowed hroot
  · rw [hsame]
  · rw [hlink, hroot]

/-- The bound on levels leaves out no file, since none stands that deep. -/
theorem Reaches.length_lt_levels_iff (hfs : fs.Proper) (h : Reaches fs loc dirs name) {maxDepth : Nat} :
    dirs.length < levels maxDepth ↔ dirs.length ≤ maxDepth := by
  obtain ⟨content, hfile⟩ := h.isFile
  have hdepth := hfs.depth _ (mem_entries_of_node? (by simp) hfile)
  simp only [List.length_append, List.length_singleton] at hdepth
  unfold levels
  omega

/-- What is found is what is reached through at most so many directories. -/
theorem mem_find_iff (hfs : fs.Proper) (hroot : fs.resolve root true = .ok (loc, some .directory)) {maxDepth : Nat}
    {p : Path} : p ∈ find fs root maxDepth ↔
      ∃ dirs name, dirs.length ≤ maxDepth ∧ Reaches fs loc dirs name ∧ p = root.below (dirs ++ [name]) := by
  have hp : root.text.isEmpty = false := (resolve_eq_ok_iff.mp hroot).1
  rw [find, List.mem_mergeSort, unordered_of_directory hroot, mem_filesBelow_iff hfs hp]
  refine exists₂_congr fun dirs name => ?_
  constructor
  · rintro ⟨hlen, hreaches, rfl⟩
    exact ⟨(hreaches.length_lt_levels_iff hfs).mp hlen, hreaches, rfl⟩
  · rintro ⟨hlen, hreaches, rfl⟩
    exact ⟨(hreaches.length_lt_levels_iff hfs).mpr hlen, hreaches, rfl⟩

theorem pairwise_find (hfs : fs.Proper) (hroot : fs.resolve root true = .ok (loc, some .directory)) (maxDepth : Nat) :
    (find fs root maxDepth).Pairwise fun p q => p.before q = true := by
  rw [find, unordered_of_directory hroot]
  exact Path.pairwise_before_mergeSort (pairwise_filesBelow hfs (resolve_eq_ok_iff.mp hroot).1)

theorem nodup_find (hfs : fs.Proper) (hroot : fs.resolve root true = .ok (loc, some .directory)) (maxDepth : Nat) :
    (find fs root maxDepth).Nodup := by
  refine (pairwise_find hfs hroot maxDepth).imp fun {p q} hbefore heq => ?_
  subst heq
  exact Path.not_before_of_before hbefore hbefore

/-- A deeper search finds the same files with others between them. -/
theorem find_sublist_find (hfs : fs.Proper) (hroot : fs.resolve root true = .ok (loc, some .directory))
    {maxDepth deeper : Nat} (hle : maxDepth ≤ deeper) : (find fs root maxDepth).Sublist (find fs root deeper) := by
  have hsubset : find fs root maxDepth ⊆ find fs root deeper := by
    intro p hp
    obtain ⟨dirs, name, hlen, hreaches, rfl⟩ := (mem_find_iff hfs hroot).mp hp
    exact (mem_find_iff hfs hroot).mpr ⟨dirs, name, hlen.trans hle, hreaches, rfl⟩
  have hsubperm := List.subperm_of_subset (nodup_find hfs hroot maxDepth) hsubset
  have : Std.Antisymm fun p q : Path => p.before q = true :=
    ⟨fun p q hpq hqp => absurd hqp (Path.not_before_of_before hpq)⟩
  exact List.sublist_of_subperm_of_pairwise hsubperm (pairwise_find hfs hroot maxDepth) (pairwise_find hfs hroot deeper)

theorem isSource_of_mem_find (hfs : fs.Proper) (hroot : fs.resolve root true = .ok (loc, some .directory))
    {maxDepth : Nat} {p : Path} (h : p ∈ find fs root maxDepth) : isSource p = true := by
  obtain ⟨dirs, name, -, hreaches, rfl⟩ := (mem_find_iff hfs hroot).mp h
  have hp : root.text.isEmpty = false := (resolve_eq_ok_iff.mp hroot).1
  have hcomponents := Path.components_below hp (hreaches.isName hfs)
  exact (isSource_iff (by simp [Path.fileName?, hcomponents])).mpr hreaches.isSource

theorem ofFile_ne_unsupported {p : Path} (h : isSource p = true) (fs : FileSystem) (q : Path) :
    Analysis.ofFile fs p ≠ .error (.unsupported q) := by
  obtain ⟨language, hlanguage⟩ := Option.isSome_iff_exists.mp h
  unfold Analysis.ofFile
  rw [hlanguage]
  cases fs.readText p <;> simp

/-- What is found below a directory, however it is come by, stands in strict order and is exactly what is reached from
there through at most so many directories, each file by the path that leads to it.  A deeper search finds more and
loses nothing, and all files that are found can be analysed as far as their names go. -/
theorem find_exact {fs : FileSystem} (hfs : fs.Proper) {root : Path} {loc : Location}
    (hroot : fs.resolve root true = .ok (loc, some .directory)) (maxDepth : Nat) :
    ((find fs root maxDepth).Pairwise (fun p q => p.before q = true) ∧ (find fs root maxDepth).Nodup) ∧
      (∀ p, p ∈ find fs root maxDepth ↔
        ∃ dirs name, dirs.length ≤ maxDepth ∧ Reaches fs loc dirs name ∧ p = root.below (dirs ++ [name])) ∧
      (∀ dirs name, Reaches fs loc dirs name → ∃ content,
        fs.resolve (root.below (dirs ++ [name])) true = .ok (loc ++ dirs ++ [name], some (.file content))) ∧
      (∀ deeper ≥ maxDepth, (find fs root maxDepth).Sublist (find fs root deeper)) ∧
      ∀ p ∈ find fs root maxDepth, ∀ fs' q, Analysis.ofFile fs' p ≠ .error (.unsupported q) := by
  refine ⟨⟨pairwise_find hfs hroot maxDepth, nodup_find hfs hroot maxDepth⟩, ?_, ?_, ?_, ?_⟩
  · exact fun p => mem_find_iff hfs hroot
  · intro dirs name hreaches
    obtain ⟨content, hfile⟩ := hreaches.isFile
    exact ⟨content, resolve_below hroot (hreaches.isName hfs) hreaches.descends hfile⟩
  · exact fun deeper hle => find_sublist_find hfs hroot hle
  · exact fun p hp fs' q => ofFile_ne_unsupported (isSource_of_mem_find hfs hroot hp) fs' q

/-- A directory that a link leads to, with directories to pass over, a link to a directory and one to a file. -/
def sampleTree : FileSystem where
  entries := [(["app"], .directory), (["app", "node_modules"], .directory),
    (["app", "node_modules", "x.js"], .file .empty), (["app", ".git"], .directory),
    (["app", ".git", "hook.js"], .file .empty), (["app", "lib"], .directory),
    (["app", "lib", "b.d.ts"], .file .empty), (["app", "lib", "deep"], .directory),
    (["app", "lib", "deep", "c.js"], .file .empty), (["app", "Main.TSX"], .file .empty),
    (["app", "notes.md"], .file .empty), (["app", ".ts"], .file .empty), (["app", "copy"], .link ⟨"lib"⟩),
    (["app", "copy.ts"], .link ⟨"Main.TSX"⟩), (["here"], .link ⟨"app/"⟩)]

theorem find_exact_through_link : sampleTree.Proper ∧
    sampleTree.resolve ⟨"here"⟩ true = .ok (["app"], some .directory) ∧
    (∀ p, p ∈ find sampleTree ⟨"here"⟩ 1 ↔ ∃ dirs name, dirs.length ≤ 1 ∧ Reaches sampleTree ["app"] dirs name ∧
      p = Path.below ⟨"here"⟩ (dirs ++ [name])) ∧
    find sampleTree ⟨"here"⟩ 1 = [⟨"here/Main.TSX"⟩, ⟨"here/lib/b.d.ts"⟩] := by
  have hproper : sampleTree.Proper := by decide
  have hroot : sampleTree.resolve ⟨"here"⟩ true = .ok (["app"], some .directory) := rfl
  have hfound : unordered sampleTree ⟨"here"⟩ 1 = [⟨"here/lib/b.d.ts"⟩, ⟨"here/Main.TSX"⟩] := by decide +kernel
  have hbefore : (⟨"here/Main.TSX"⟩ : Path).before ⟨"here/lib/b.d.ts"⟩ = true := by decide
  refine ⟨hproper, hroot, (find_exact hproper hroot 1).2.1, ?_⟩
  rw [find, hfound]
  simp [List.mergeSort, List.MergeSort.Internal.splitInTwo, hbefore]

end NameAdvisor.Discovery
