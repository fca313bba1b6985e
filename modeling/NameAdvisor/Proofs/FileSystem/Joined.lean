import NameAdvisor.Proofs.FileSystem.Write

/-!
# Entries by the path of their directory

The path of a directory and the name of an entry, joined, are the path of the entry: its parts are those of the
directory and the name, and it leads to where the name stands below the directory, through whatever links the directory
was come by.

## Main definitions

* `FileSystem.IsName`: texts that can be names of entries.
* `Path.below`: the path of what some names lead to, one below the other.
* `Path.places`: the steps of a path without that for a slash at its end.
-/

namespace NameAdvisor

/-- The text can be the name of an entry: it is neither empty nor a step elsewhere, is not too long, and holds no
character that ends names or paths. -/
structure FileSystem.IsName (name : String) : Prop where
  ne_empty : name ≠ ""
  ne_here : name ≠ "."
  ne_up : name ≠ ".."
  slash : '/' ∉ name.toList
  null : '\x00' ∉ name.toList
  size : name.utf8ByteSize ≤ nameLimit

theorem FileSystem.isName_iff {name : String} : IsName name ↔ (name ≠ "" ∧ name ≠ "." ∧ name ≠ "..") ∧
    '/' ∉ name.toList ∧ '\x00' ∉ name.toList ∧ name.utf8ByteSize ≤ nameLimit := by
  constructor
  · intro h
    exact ⟨⟨h.ne_empty, h.ne_here, h.ne_up⟩, h.slash, h.null, h.size⟩
  · rintro ⟨⟨hempty, hhere, hup⟩, hslash, hnull, hsize⟩
    exact ⟨hempty, hhere, hup, hslash, hnull, hsize⟩

instance (name : String) : Decidable (FileSystem.IsName name) :=
  decidable_of_iff _ FileSystem.isName_iff.symm

namespace Path

open FileSystem

/-! ## Parts -/

theorem pieces_eq_splitOn (s : List Char) : pieces s = s.splitOn '/' := by
  induction s with
  | nil => rfl
  | cons c s ih =>
    rw [pieces, List.splitOn_cons_eq_if_modifyHead, ih]
    cases hs : s.splitOn '/' with
    | nil => exact absurd hs (List.splitOn_ne_nil '/' s)
    | cons piece rest => simp only [beq_iff_eq, List.modifyHead_cons]

/-- The parts that the text of a path names between its slashes. -/
def named (s : List Char) : List Component :=
  ((pieces s).filter (!·.isEmpty)).map Component.ofPiece

/-- The steps of a path, without the one that a slash at its end asks for. -/
def places (p : Path) : List Component :=
  (if p.isAbsolute then [Component.top] else []) ++ named p.text.toList

theorem steps_eq (p : Path) : p.steps = p.places ++
    if (pieces p.text.toList).getLast? == some [] && !(named p.text.toList).isEmpty then [Component.here] else [] :=
  rfl

theorem steps_eq_places_or (p : Path) : p.steps = p.places ∨ p.steps = p.places ++ [.here] := by
  rw [steps_eq]
  split
  · exact .inr rfl
  · exact .inl (List.append_nil _)

/-- A path with a text leads somewhere. -/
theorem places_ne_nil {p : Path} (hp : p.text.isEmpty = false) : p.places ≠ [] := by
  -- the first piece is a part, or nothing stands before the first slash
  intro h
  obtain ⟨htop, hnamed⟩ := List.append_eq_nil_iff.mp h
  have habs : p.isAbsolute = false := by simpa using htop
  cases hs : p.text.toList with
  | nil => simp [String.toList_eq_nil_iff.mp hs] at hp
  | cons c s =>
    have hc : c ≠ '/' := by simpa [isAbsolute, hs] using habs
    obtain ⟨piece, rest, hpieces⟩ := List.exists_cons_of_ne_nil (List.splitOn_ne_nil '/' s)
    simp [named, hs, pieces_eq_splitOn, List.splitOn_cons_eq_if_modifyHead, hpieces, hc] at hnamed

theorem exists_components_eq {p : Path} (hp : p.text.isEmpty = false) :
    ∃ first rest, p.places = first :: rest ∧ p.components = first :: rest.filter (· ≠ .here) := by
  obtain ⟨first, rest, hplaces⟩ := List.exists_cons_of_ne_nil (places_ne_nil hp)
  refine ⟨first, rest, hplaces, ?_⟩
  have hsteps := p.steps_eq_places_or
  rw [hplaces] at hsteps
  obtain h | h := hsteps <;> simp [components, h]

/-! ## Joining a name -/

variable {p : Path} {name : String}

theorem ofPiece_of_isName (h : IsName name) : Component.ofPiece name.toList = .name name := by
  have hhere : name.toList ≠ ['.'] := fun he => h.ne_here (String.toList_inj.mp he)
  have hup : name.toList ≠ ['.', '.'] := fun he => h.ne_up (String.toList_inj.mp he)
  rw [Component.ofPiece, if_neg hhere, if_neg hup, String.ofList_toList]

theorem not_isAbsolute_of_isName (h : IsName name) : (⟨name⟩ : Path).isAbsolute = false := by
  have hne : name.toList.head? ≠ some '/' := fun he => h.slash (List.mem_of_head? he)
  simpa [isAbsolute] using hne

/-- The text of the entry `name` of a directory: that of the directory, a slash if there is none at its end, and the
name. -/
theorem exists_text_join (hp : p.text.isEmpty = false) (h : IsName name) :
    ∃ front, (p.join ⟨name⟩).text.toList = front ++ '/' :: name.toList ∧
      (p.text.toList = front ∨ p.text.toList = front ++ ['/']) := by
  rw [join, not_isAbsolute_of_isName h, hp]
  simp only [Bool.or_self, Bool.false_eq_true, if_false]
  split
  · next hlast =>
    obtain ⟨front, hfront⟩ := List.getLast?_eq_some_iff.mp (by simpa using hlast)
    exact ⟨front, by simp [hfront], .inr hfront⟩
  · exact ⟨p.text.toList, by simp, .inl rfl⟩

theorem text_join_ne_empty (hp : p.text.isEmpty = false) (h : IsName name) :
    (p.join ⟨name⟩).text.isEmpty = false := by
  obtain ⟨front, htext, -⟩ := exists_text_join hp h
  have hne : (p.join ⟨name⟩).text ≠ "" := fun he => by simp [he] at htext
  simpa using hne

theorem null_notMem_join (hp : p.text.isEmpty = false) (h : IsName name) (hnull : '\x00' ∉ p.text.toList) :
    '\x00' ∉ (p.join ⟨name⟩).text.toList := by
  obtain ⟨front, htext, hfront⟩ := exists_text_join hp h
  have hnull : '\x00' ∉ front := by
    obtain hf | hf := hfront <;> simp_all
  simp [htext, hnull, h.null]

theorem isAbsolute_join (hp : p.text.isEmpty = false) (h : IsName name) :
    (p.join ⟨name⟩).isAbsolute = p.isAbsolute := by
  obtain ⟨front, htext, hfront⟩ := exists_text_join hp h
  have hhead : (p.join ⟨name⟩).text.toList.head? = p.text.toList.head? := by
    cases front with
    | nil =>
      obtain hf | hf := hfront
      · simp [String.toList_eq_nil_iff.mp hf] at hp
      · simp [htext, hf]
    | cons c front => obtain hf | hf := hfront <;> simp [htext, hf]
  rw [isAbsolute, isAbsolute, hhead]

/-- The last piece of the path of an entry is its name, and the others name the directory. -/
theorem exists_pieces_join (hp : p.text.isEmpty = false) (h : IsName name) :
    ∃ front, pieces (p.join ⟨name⟩).text.toList = pieces front ++ [name.toList] ∧
      named front = named p.text.toList := by
  obtain ⟨front, htext, hfront⟩ := exists_text_join hp h
  refine ⟨front, ?_, ?_⟩
  · rw [htext, pieces_eq_splitOn, List.splitOn_append_cons_self, List.splitOn_eq_singleton h.slash, pieces_eq_splitOn]
  · obtain hf | hf := hfront
    · rw [hf]
    · simp [named, hf, pieces_eq_splitOn, List.splitOn_append_cons_self]

theorem places_join (hp : p.text.isEmpty = false) (h : IsName name) :
    (p.join ⟨name⟩).places = p.places ++ [.name name] := by
  obtain ⟨front, hpieces, hnamed⟩ := exists_pieces_join hp h
  have hne : name.toList ≠ [] := fun he => h.ne_empty (String.toList_eq_nil_iff.mp he)
  rw [places, places, isAbsolute_join hp h, ← hnamed]
  simp [named, hpieces, hne, ofPiece_of_isName h]

/-- An entry of a directory is one step from where the directory is. -/
theorem steps_join (hp : p.text.isEmpty = false) (h : IsName name) :
    (p.join ⟨name⟩).steps = p.places ++ [.name name] := by
  obtain ⟨front, hpieces, -⟩ := exists_pieces_join hp h
  have hne : name.toList ≠ [] := fun he => h.ne_empty (String.toList_eq_nil_iff.mp he)
  rw [steps_eq, places_join hp h, hpieces]
  simp [hne]

theorem components_join (hp : p.text.isEmpty = false) (h : IsName name) :
    (p.join ⟨name⟩).components = p.components ++ [.name name] := by
  obtain ⟨first, rest, hplaces, hcomponents⟩ := exists_components_eq hp
  rw [components, steps_join hp h, hplaces, hcomponents]
  simp

/-! ## Joining names one after the other -/

/-- The path of what the names lead to, each in the directory of the one before, from the directory `p`. -/
def below (p : Path) (names : List String) : Path :=
  names.foldl (fun p name => p.join ⟨name⟩) p

@[simp] theorem below_nil (p : Path) : p.below [] = p := rfl

@[simp] theorem below_cons (p : Path) (name : String) (names : List String) :
    p.below (name :: names) = (p.join ⟨name⟩).below names := rfl

theorem below_append (p : Path) (names names' : List String) :
    p.below (names ++ names') = (p.below names).below names' :=
  List.foldl_append

variable {names : List String}

theorem text_below_ne_empty (hp : p.text.isEmpty = false) (h : ∀ name ∈ names, IsName name) :
    (p.below names).text.isEmpty = false := by
  induction names generalizing p with
  | nil => exact hp
  | cons name names ih =>
    obtain ⟨hname, hnames⟩ := List.forall_mem_cons.mp h
    exact ih (text_join_ne_empty hp hname) hnames

theorem null_notMem_below (hp : p.text.isEmpty = false) (h : ∀ name ∈ names, IsName name)
    (hnull : '\x00' ∉ p.text.toList) : '\x00' ∉ (p.below names).text.toList := by
  induction names generalizing p with
  | nil => exact hnull
  | cons name names ih =>
    obtain ⟨hname, hnames⟩ := List.forall_mem_cons.mp h
    exact ih (text_join_ne_empty hp hname) hnames (null_notMem_join hp hname hnull)

theorem places_below (hp : p.text.isEmpty = false) (h : ∀ name ∈ names, IsName name) :
    (p.below names).places = p.places ++ names.map .name := by
  induction names generalizing p with
  | nil => simp
  | cons name names ih =>
    obtain ⟨hname, hnames⟩ := List.forall_mem_cons.mp h
    rw [below_cons, ih (text_join_ne_empty hp hname) hnames, places_join hp hname]
    simp

theorem components_below (hp : p.text.isEmpty = false) (h : ∀ name ∈ names, IsName name) :
    (p.below names).components = p.components ++ names.map .name := by
  induction names generalizing p with
  | nil => simp
  | cons name names ih =>
    obtain ⟨hname, hnames⟩ := List.forall_mem_cons.mp h
    rw [below_cons, ih (text_join_ne_empty hp hname) hnames, components_join hp hname]
    simp

theorem steps_below (hp : p.text.isEmpty = false) {dirs : List String} (h : ∀ dir ∈ dirs, IsName dir)
    (hname : IsName name) : (p.below (dirs ++ [name])).steps = p.places ++ (dirs ++ [name]).map .name := by
  rw [below_append, below_cons, below_nil, steps_join (text_below_ne_empty hp h) hname, places_below hp h]
  simp

end Path

namespace FileSystem

/-! ## Walking on -/

variable {fs : FileSystem}

/-- A walk that comes to a directory goes on from there. -/
theorem exists_walk_append {links fuel : Nat} {start loc : Location} {steps : List Path.Component}
    (h : fs.walk true links fuel start steps = .ok (loc, some .directory)) (rest : List Path.Component) :
    ∃ links' fuel', ∀ more, fs.walk true links (fuel + more) start (steps ++ rest) =
      fs.walk true links' (fuel' + more) loc rest := by
  induction fuel generalizing links start steps with
  | zero =>
    cases steps with
    | nil =>
      obtain ⟨rfl, -⟩ := Prod.mk.inj (Except.ok.inj h)
      exact ⟨links, 0, fun _ => rfl⟩
    | cons step steps => cases step <;> cases h
  | succ fuel ih =>
    cases steps with
    | nil =>
      obtain ⟨rfl, -⟩ := Prod.mk.inj (Except.ok.inj h)
      exact ⟨links, fuel + 1, fun _ => rfl⟩
    | cons step steps =>
      simp only [Nat.add_right_comm fuel 1]
      cases step with
      | top => exact ih h
      | here => exact ih h
      | up => exact ih h
      | name name =>
        obtain ⟨hsize, ⟨rfl, hr, hdir, -⟩ | ⟨hn, hgo⟩ | ⟨target, links, hn, -, rfl, hgo⟩⟩ := walk_name_cases h
        · exact absurd (Prod.mk.inj hr).2.symm hdir
        · obtain ⟨links', fuel', hrest⟩ := ih hgo
          refine ⟨links', fuel', fun more => ?_⟩
          rw [← hrest more, List.cons_append, walk, if_neg hsize, hn]
        · obtain ⟨links', fuel', hrest⟩ := ih hgo
          refine ⟨links', fuel', fun more => ?_⟩
          rw [← hrest more, List.cons_append, walk, if_neg hsize, hn]
          simp

/-- A last step that asks for the directory itself is taken last. -/
theorem exists_walk_of_here {links fuel : Nat} {start : Location} {steps : List Path.Component}
    {found : Location × Option Node} (h : fs.walk true links fuel start (steps ++ [.here]) = .ok found) :
    ∃ fuel', fuel = fuel' + 1 ∧ fs.walk true links fuel' start steps = .ok found := by
  induction fuel generalizing links start steps with
  | zero =>
    cases steps with
    | nil => cases h
    | cons step steps => cases step <;> cases h
  | succ fuel ih =>
    cases steps with
    | nil => exact ⟨fuel, rfl, h⟩
    | cons step steps =>
      cases step with
      | name name =>
        rw [List.cons_append] at h
        obtain ⟨hsize, ⟨hnil, -⟩ | ⟨hn, hgo⟩ | ⟨target, links, hn, -, rfl, hgo⟩⟩ := walk_name_cases h
        · simp at hnil
        · obtain ⟨fuel, rfl, hrest⟩ := ih hgo
          refine ⟨fuel + 1, rfl, ?_⟩
          rw [walk, if_neg hsize, hn]
          exact hrest
        · rw [← List.append_assoc] at hgo
          obtain ⟨fuel, rfl, hrest⟩ := ih hgo
          refine ⟨fuel + 1, rfl, ?_⟩
          rw [walk, if_neg hsize, hn]
          simpa using hrest
      | _ =>
        obtain ⟨fuel, rfl, hrest⟩ := ih h
        exact ⟨fuel + 1, rfl, hrest⟩

/-- The names lead from the directory at `loc` from directory to directory. -/
def Descends (fs : FileSystem) (loc : Location) (dirs : List String) : Prop :=
  ∀ front, front <+: dirs → front ≠ [] → fs.node? (loc ++ front) = some .directory

theorem descends_nil (fs : FileSystem) (loc : Location) : fs.Descends loc [] :=
  fun _ hfront hne => absurd (List.prefix_nil.mp hfront) hne

theorem descends_cons {loc : Location} {dir : String} {dirs : List String} : fs.Descends loc (dir :: dirs) ↔
    fs.node? (loc ++ [dir]) = some .directory ∧ fs.Descends (loc ++ [dir]) dirs := by
  constructor
  · intro h
    refine ⟨h [dir] (by simp) (by simp), fun front hfront _ => ?_⟩
    simpa using h (dir :: front) (by simpa using hfront) (by simp)
  · rintro ⟨hdir, h⟩ front hfront hne
    obtain ⟨first, rest, rfl⟩ := List.exists_cons_of_ne_nil hne
    obtain ⟨rfl, hrest⟩ := List.cons_prefix_cons.mp hfront
    cases rest with
    | nil => exact hdir
    | cons next rest => simpa using h (next :: rest) hrest (by simp)

/-- Names of directories and then of a file lead to the file. -/
theorem walk_names {loc : Location} {dirs : List String} {name : String} {content : ByteArray}
    (hnames : ∀ n ∈ dirs ++ [name], IsName n) (hdirs : fs.Descends loc dirs)
    (hfile : fs.node? (loc ++ dirs ++ [name]) = some (.file content)) {follow : Bool} {links fuel : Nat}
    (hfuel : dirs.length < fuel) : fs.walk follow links fuel loc ((dirs ++ [name]).map .name) =
      .ok (loc ++ dirs ++ [name], some (.file content)) := by
  obtain ⟨fuel, rfl⟩ := Nat.exists_eq_add_one_of_ne_zero (Nat.ne_zero_of_lt hfuel)
  induction dirs generalizing loc fuel with
  | nil =>
    have hsize : ¬ nameLimit < name.utf8ByteSize := Nat.not_lt.mpr (hnames name (by simp)).size
    simp_all [walk]
  | cons dir dirs ih =>
    obtain ⟨hdir, hdirs⟩ := descends_cons.mp hdirs
    have hsize : ¬ nameLimit < dir.utf8ByteSize := Nat.not_lt.mpr (hnames dir (by simp)).size
    obtain ⟨fuel, rfl⟩ := Nat.exists_eq_add_one_of_ne_zero (show fuel ≠ 0 by simp at hfuel; omega)
    rw [List.cons_append, List.map_cons, walk, if_neg hsize, hdir]
    have hgo := ih (fun n hn => hnames n (List.mem_cons_of_mem _ hn)) hdirs (by simpa using hfile) fuel
      (by simpa using hfuel)
    simpa using hgo

/-- A file is where its path below a directory leads. -/
theorem resolve_below {root : Path} {loc : Location} (hroot : fs.resolve root true = .ok (loc, some .directory))
    {dirs : List String} {name : String} {content : ByteArray} (hnames : ∀ n ∈ dirs ++ [name], IsName n)
    (hdirs : fs.Descends loc dirs) (hfile : fs.node? (loc ++ dirs ++ [name]) = some (.file content)) :
    fs.resolve (root.below (dirs ++ [name])) true = .ok (loc ++ dirs ++ [name], some (.file content)) := by
  obtain ⟨hp, hz, hgo⟩ := resolve_eq_ok_iff.mp hroot
  obtain ⟨spare, hspare⟩ : ∃ spare, ∀ p, fs.walkFuel p = p.steps.length + spare := ⟨_, fun _ => rfl⟩
  -- the walk to the directory leaves as much fuel if a slash at the end of its path is left out
  have hplaces : fs.walk true linkLimit (root.places.length + spare) fs.workingDirectory root.places =
      .ok (loc, some .directory) := by
    rw [hspare] at hgo
    obtain hsteps | hsteps := root.steps_eq_places_or
    · rwa [hsteps] at hgo
    · rw [hsteps] at hgo
      obtain ⟨fuel, hfuel, hgo⟩ := exists_walk_of_here hgo
      obtain rfl : fuel = root.places.length + spare := by simp at hfuel; omega
      exact hgo
  have hsteps : (root.below (dirs ++ [name])).steps = root.places ++ (dirs ++ [name]).map .name :=
    Path.steps_below hp (fun n hn => hnames n (by simp [hn])) (hnames name (by simp))
  refine resolve_eq_ok_iff.mpr ⟨Path.text_below_ne_empty hp hnames, ?_, ?_⟩
  · simpa using Path.null_notMem_below hp hnames (by simpa using hz)
  · obtain ⟨links, fuel, hrest⟩ := exists_walk_append hplaces ((dirs ++ [name]).map .name)
    have hfuel : fs.walkFuel (root.below (dirs ++ [name])) = root.places.length + spare + (dirs ++ [name]).length := by
      rw [hspare, hsteps, List.length_append, List.length_map]
      omega
    rw [hfuel, hsteps, hrest]
    exact walk_names hnames hdirs hfile (by simp; omega)

end FileSystem

end NameAdvisor
