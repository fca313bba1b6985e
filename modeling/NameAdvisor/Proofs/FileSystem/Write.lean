import NameAdvisor.FileSystem.Basic

/-!
# Reading what was written

Writing a file changes what stands at one location.  Every path that led somewhere leads there still, so the file is
read back by the path that it was written by, through whatever links.

## Main definitions

* `FileSystem.Writable`: locations where a file can be written.
-/

namespace NameAdvisor.FileSystem

/-- A file can be written at the location: it holds a file or nothing. -/
structure Writable (fs : FileSystem) (loc : Location) : Prop where
  ne_nil : loc ≠ []
  free : fs.node? loc = none ∨ ∃ content, fs.node? loc = some (.file content)

theorem Writable.ne_of_directory {fs : FileSystem} {loc other : Location} (h : fs.Writable loc)
    (ho : fs.node? other = some .directory) : other ≠ loc := by
  rintro rfl
  obtain hn | ⟨_, hn⟩ := h.free <;> cases hn.symm.trans ho

theorem Writable.ne_of_link {fs : FileSystem} {loc other : Location} (h : fs.Writable loc) {target : Path}
    (ho : fs.node? other = some (.link target)) : other ≠ loc := by
  rintro rfl
  obtain hn | ⟨_, hn⟩ := h.free <;> cases hn.symm.trans ho

theorem node?_of_ne_nil (fs : FileSystem) {loc : Location} (h : loc ≠ []) : fs.node? loc = fs.entries.lookup loc := by
  cases loc with
  | nil => exact absurd rfl h
  | cons name loc => rfl

theorem lookup_setEntry (loc other : Location) (node : Node) (entries : List (Location × Node)) :
    (setEntry loc node entries).lookup other = if other = loc then some node else entries.lookup other := by
  induction entries with
  | nil =>
    rw [setEntry, List.lookup_cons]
    split <;> simp_all
  | cons e entries ih =>
    obtain ⟨l, n⟩ := e
    rw [setEntry]
    split
    · next h =>
      subst h
      by_cases ho : other = l
      · simp [ho]
      · simp [List.lookup_cons, ho, beq_eq_false_iff_ne.2 ho]
    · next h =>
      rw [List.lookup_cons, List.lookup_cons, ih]
      by_cases ho : other = l
      · subst ho
        simp [h]
      · simp [beq_eq_false_iff_ne.2 ho]

/-- Setting a location leaves every other as it is. -/
theorem node?_set (fs : FileSystem) {loc : Location} (h : loc ≠ []) (node : Node) (other : Location) :
    (fs.set loc node).node? other = if other = loc then some node else fs.node? other := by
  cases other with
  | nil => rw [if_neg (Ne.symm h)]; rfl
  | cons name names =>
    rw [node?_of_ne_nil _ (List.cons_ne_nil _ _), node?_of_ne_nil _ (List.cons_ne_nil _ _)]
    exact lookup_setEntry loc _ node fs.entries

/-- How a walk that leads somewhere goes on at a name: it ends there, goes down, or follows a link. -/
theorem walk_name_cases {fs : FileSystem} {follow : Bool} {links fuel : Nat} {start : Location} {name : String}
    {rest : List Path.Component} {r : Location × Option Node}
    (h : fs.walk follow links (fuel + 1) start (.name name :: rest) = .ok r) :
    ¬ nameLimit < name.utf8ByteSize ∧
      (rest = [] ∧ r = (start ++ [name], fs.node? (start ++ [name])) ∧ fs.node? (start ++ [name]) ≠ some .directory ∧
          (∀ target, fs.node? (start ++ [name]) = some (.link target) → follow = false) ∨
        fs.node? (start ++ [name]) = some .directory ∧ fs.walk follow links fuel (start ++ [name]) rest = .ok r ∨
        ∃ target links', fs.node? (start ++ [name]) = some (.link target) ∧ (rest.isEmpty && !follow) = false ∧
          links = links' + 1 ∧ fs.walk follow links' fuel start (target.steps ++ rest) = .ok r) := by
  rw [walk] at h
  split at h
  · cases h
  · next hsize =>
    refine ⟨hsize, ?_⟩
    split at h
    · next hn =>
      split at h
      · next hr =>
        cases h
        exact .inl ⟨List.isEmpty_iff.1 hr, by rw [hn], by simp [hn], by simp [hn]⟩
      · cases h
    · next hn => exact .inr (.inl ⟨hn, h⟩)
    · next hn =>
      split at h
      · next hr =>
        cases h
        exact .inl ⟨List.isEmpty_iff.1 hr, by rw [hn], by simp [hn], by simp [hn]⟩
      · cases h
    · next target hn =>
      split at h
      · next hr =>
        cases h
        obtain ⟨hr, hf⟩ : rest = [] ∧ follow = false := by simpa using hr
        exact .inl ⟨hr, by rw [hn], by simp [hn], fun _ _ => hf⟩
      · next hr =>
        cases links with
        | zero => cases h
        | succ links => exact .inr (.inr ⟨target, links, hn, by simpa using hr, rfl, h⟩)

/-- What a walk finds is what stands where it leads. -/
theorem node?_of_walk {fs : FileSystem} {follow : Bool} {links fuel : Nat} {start loc : Location}
    {steps : List Path.Component} {node : Option Node} (h : fs.walk follow links fuel start steps = .ok (loc, node)) :
    node = fs.node? loc := by
  -- by the fuel, since links can make the steps that are left more
  induction fuel generalizing links start steps with
  | zero =>
    cases steps with
    | nil => cases h; rfl
    | cons step rest => cases step <;> cases h
  | succ fuel ih =>
    cases steps with
    | nil => cases h; rfl
    | cons step rest =>
      cases step with
      | top => exact ih h
      | here => exact ih h
      | up => exact ih h
      | name name =>
        obtain ⟨-, ⟨-, hr, -⟩ | ⟨-, hw⟩ | ⟨_, _, -, -, -, hw⟩⟩ := walk_name_cases h
        · cases hr; rfl
        · exact ih hw
        · exact ih hw

/-- Writing a file leaves all walks their way. -/
theorem walk_set {fs : FileSystem} {written : Location} (hw : fs.Writable written) (content : ByteArray)
    {follow : Bool} {links fuel : Nat} {start loc : Location} {steps : List Path.Component} {node : Option Node}
    (h : fs.walk follow links fuel start steps = .ok (loc, node)) :
    (fs.set written (.file content)).walk follow links fuel start steps =
      .ok (loc, if loc = written then some (.file content) else node) := by
  -- a walk that comes to `written` before its end fails, so only the end can have changed
  induction fuel generalizing links start steps with
  | zero =>
    cases steps with
    | nil => cases h; rw [walk, node?_set _ hw.ne_nil]
    | cons step rest => cases step <;> cases h
  | succ fuel ih =>
    cases steps with
    | nil => cases h; rw [walk, node?_set _ hw.ne_nil]
    | cons step rest =>
      cases step with
      | top => exact ih h
      | here => exact ih h
      | up => exact ih h
      | name name =>
        obtain ⟨hsize, ⟨rfl, hr, hdir, hlink⟩ | ⟨hn, hgo⟩ | ⟨target, links, hn, hr, rfl, hgo⟩⟩ := walk_name_cases h
        · cases hr
          rw [walk, if_neg hsize, node?_set _ hw.ne_nil]
          by_cases heq : start ++ [name] = written
          · simp [heq]
          · cases hn : fs.node? (start ++ [name]) with
            | none => simp [heq]
            | some n =>
              cases n with
              | file => simp [heq]
              | directory => exact absurd hn hdir
              | link target => simp [heq, hlink target hn]
        · rw [walk, if_neg hsize, node?_set _ hw.ne_nil, if_neg (hw.ne_of_directory hn), hn]
          exact ih hgo
        · rw [walk, if_neg hsize, node?_set _ hw.ne_nil, if_neg (hw.ne_of_link hn), hn]
          simp only [hr]
          exact ih hgo

/-- What passes over the old node and the new one does not see that a location was set. -/
theorem foldl_setEntry {f : Nat → Location × Node → Nat} {loc : Location} {node : Node}
    (hnew : ∀ n, f n (loc, node) = n) {entries : List (Location × Node)}
    (hold : ∀ old, entries.lookup loc = some old → ∀ n, f n (loc, old) = n) (n : Nat) :
    (setEntry loc node entries).foldl f n = entries.foldl f n := by
  induction entries generalizing n with
  | nil => simp [setEntry, hnew]
  | cons e entries ih =>
    obtain ⟨l, old⟩ := e
    rw [setEntry]
    split
    · next hl =>
      subst hl
      simp [hnew, hold old (by simp)]
    · next hl =>
      have hlookup : ((l, old) :: entries).lookup loc = entries.lookup loc := by
        rw [List.lookup_cons, beq_eq_false_iff_ne.2 (Ne.symm hl)]
      rw [hlookup] at hold
      rw [List.foldl_cons, List.foldl_cons, ih hold]

theorem walkFuel_set {fs : FileSystem} {loc : Location} (h : fs.Writable loc) {node : Node}
    (hnode : ∀ target, node ≠ .link target) (p : Path) : (fs.set loc node).walkFuel p = fs.walkFuel p := by
  have hfree := h.free
  rw [node?_of_ne_nil fs h.ne_nil] at hfree
  unfold walkFuel set
  rw [foldl_setEntry]
  · intro n
    cases node with
    | link target => exact absurd rfl (hnode target)
    | _ => rfl
  · intro old ho n
    obtain hn | ⟨_, hn⟩ := hfree <;> cases hn.symm.trans ho
    rfl

/-- A path leads where the walk along it leads. -/
theorem resolve_eq_ok_iff {fs : FileSystem} {p : Path} {follow : Bool} {found : Location × Option Node} :
    fs.resolve p follow = .ok found ↔ p.text.isEmpty = false ∧ p.text.toList.contains '\x00' = false ∧
      fs.walk follow linkLimit (fs.walkFuel p) fs.workingDirectory p.steps = .ok found := by
  unfold resolve
  split
  · simp_all
  · split <;> simp_all

theorem node?_of_resolve {fs : FileSystem} {p : Path} {follow : Bool} {loc : Location} {node : Option Node}
    (h : fs.resolve p follow = .ok (loc, node)) : node = fs.node? loc := by
  obtain ⟨-, -, hgo⟩ := resolve_eq_ok_iff.1 h
  exact node?_of_walk hgo

theorem resolve_set {fs : FileSystem} {written : Location} (hw : fs.Writable written) (content : ByteArray) {p : Path}
    {follow : Bool} {loc : Location} {node : Option Node} (h : fs.resolve p follow = .ok (loc, node)) :
    (fs.set written (.file content)).resolve p follow =
      .ok (loc, if loc = written then some (.file content) else node) := by
  obtain ⟨hp, hz, hgo⟩ := resolve_eq_ok_iff.1 h
  refine resolve_eq_ok_iff.2 ⟨hp, hz, ?_⟩
  rw [walkFuel_set hw (by simp)]
  exact walk_set hw content hgo

/-- What is opened for writing is the location of a file, or one that is free. -/
theorem exists_of_openForWriting {fs : FileSystem} {p : Path} {loc : Location} {content : ByteArray}
    (h : fs.openForWriting p = .ok (loc, content)) :
    ∃ node, fs.resolve p true = .ok (loc, node) ∧ fs.Writable loc := by
  have hne : ∀ {loc}, fs.node? loc ≠ some .directory → loc ≠ [] := by
    rintro _ hd rfl
    exact hd rfl
  unfold openForWriting at h
  cases hr : fs.resolve p true with
  | error e => simp [hr] at h
  | ok found =>
    obtain ⟨loc', node⟩ := found
    have hnode := node?_of_resolve hr
    cases node with
    | none =>
      obtain ⟨rfl, -⟩ : loc' = loc ∧ _ := by simpa [hr] using h
      exact ⟨none, rfl, hne (by simp [← hnode]), .inl hnode.symm⟩
    | some node =>
      cases node with
      | file old =>
        obtain ⟨rfl, -⟩ : loc' = loc ∧ _ := by simpa [hr] using h
        exact ⟨_, rfl, hne (by simp [← hnode]), .inr ⟨old, hnode.symm⟩⟩
      | directory => simp [hr] at h
      | link target => simp [hr] at h

theorem exists_of_write {fs fs' : FileSystem} {p : Path} {bytes : ByteArray} (h : fs.write p bytes = .ok fs') :
    ∃ loc node, fs.resolve p true = .ok (loc, node) ∧ fs.Writable loc ∧ fs' = fs.set loc (.file bytes) := by
  unfold write at h
  cases ho : fs.openForWriting p with
  | error e => simp [ho, Except.map] at h
  | ok opened =>
    obtain ⟨loc, content⟩ := opened
    obtain ⟨node, hr, hw⟩ := exists_of_openForWriting ho
    exact ⟨loc, node, hr, hw, by simpa [ho, Except.map] using h.symm⟩

theorem exists_of_append {fs fs' : FileSystem} {p : Path} {header bytes : ByteArray}
    (h : fs.append p header bytes = .ok fs') :
    ∃ loc node content, fs.resolve p true = .ok (loc, node) ∧ fs.Writable loc ∧ fs' = fs.set loc (.file content) := by
  unfold append at h
  cases ho : fs.openForWriting p with
  | error e => simp [ho, Except.map] at h
  | ok opened =>
    obtain ⟨loc, content⟩ := opened
    obtain ⟨node, hr, hw⟩ := exists_of_openForWriting ho
    exact ⟨loc, node, _, hr, hw, by simpa [ho, Except.map] using h.symm⟩

/-- A file that was written is there, and holds what was written. -/
theorem lookup_of_write {fs fs' : FileSystem} {p : Path} {bytes : ByteArray} (h : fs.write p bytes = .ok fs') :
    fs'.lookup p = some (.file bytes) := by
  obtain ⟨loc, node, hr, hw, rfl⟩ := exists_of_write h
  simp [lookup, resolve_set hw bytes hr]

theorem readBytes_of_write {fs fs' : FileSystem} {p : Path} {bytes : ByteArray} (h : fs.write p bytes = .ok fs') :
    fs'.readBytes p = .ok bytes := by
  obtain ⟨loc, node, hr, hw, rfl⟩ := exists_of_write h
  simp [readBytes, resolve_set hw bytes hr]

theorem readText_of_readBytes {fs : FileSystem} {p : Path} {text : String}
    (h : fs.readBytes p = .ok (Utf8.encode text)) : fs.readText p = .ok text := by
  simp only [readText, h, Utf8.decode_encode]

theorem readText_of_write {fs fs' : FileSystem} {p : Path} {text : String}
    (h : fs.write p (Utf8.encode text) = .ok fs') : fs'.readText p = .ok text :=
  readText_of_readBytes (readBytes_of_write h)

theorem set_set (fs : FileSystem) (loc : Location) (first second : Node) :
    (fs.set loc first).set loc second = fs.set loc second := by
  have he : ∀ entries : List (Location × Node),
      setEntry loc second (setEntry loc first entries) = setEntry loc second entries := by
    intro entries
    induction entries with
    | nil => simp [setEntry]
    | cons e entries ih =>
      obtain ⟨l, n⟩ := e
      by_cases hl : l = loc <;> simp [setEntry, hl, ih]
  simp [set, he]

/-- Of two contents that are written one after the other, only the second remains. -/
theorem exists_write_of_write {fs fs' : FileSystem} {p : Path} {bytes : ByteArray} (h : fs.write p bytes = .ok fs')
    (bytes' : ByteArray) : ∃ fs'', fs.write p bytes' = .ok fs'' ∧ fs'.write p bytes' = .ok fs'' := by
  obtain ⟨loc, node, hr, hw, rfl⟩ := exists_of_write h
  have hagain : (fs.set loc (.file bytes)).write p bytes' = .ok ((fs.set loc (.file bytes)).set loc (.file bytes')) := by
    simp [write, openForWriting, resolve_set hw bytes hr, Except.map]
  refine ⟨fs.set loc (.file bytes'), ?_, hagain.trans (by rw [set_set])⟩
  have hnode := node?_of_resolve hr
  obtain hn | ⟨content, hn⟩ := hw.free <;> rw [hn] at hnode <;> simp [write, openForWriting, hr, hnode, Except.map]

end NameAdvisor.FileSystem
