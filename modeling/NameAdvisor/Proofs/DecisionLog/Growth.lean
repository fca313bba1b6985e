import NameAdvisor.Proofs.FileSystem.Apart
import NameAdvisor.Proofs.Text.Utf8

/-!
# How a log grows

All decisions of a run go to one file: the first candidate that can be opened.  That file keeps what it held, gets the
title if it held nothing, and then the sections of the decisions in their order; no other file changes.

## Main definitions

* `FileSystem.opens`: the paths at which a file can be opened for writing.
* `FileSystem.held`: what a path holds; nothing where there is no file.
* `DecisionLog.recordAll`: adding some decisions to a log, one after the other.
* `DecisionLog.Grows`: what that comes to for the file that takes them.
-/

namespace NameAdvisor

namespace FileSystem

/-- Whether the file that `p` leads to can be opened for writing, be it there or not. -/
def opens (fs : FileSystem) (p : Path) : Bool :=
  (fs.openForWriting p).toOption.isSome

/-- What the file at `p` holds; nothing if there is none. -/
def held (fs : FileSystem) (p : Path) : ByteArray :=
  (fs.readBytes p).toOption.getD .empty

theorem exists_of_opens {fs : FileSystem} {p : Path} (h : fs.opens p = true) :
    ∃ loc content, fs.openForWriting p = .ok (loc, content) := by
  unfold opens at h
  cases ho : fs.openForWriting p with
  | error e => simp [ho, Except.toOption] at h
  | ok opened => exact ⟨opened.1, opened.2, rfl⟩

theorem held_of_openForWriting {fs : FileSystem} {p : Path} {loc : Location} {content : ByteArray}
    (h : fs.openForWriting p = .ok (loc, content)) : fs.held p = content := by
  unfold openForWriting at h
  unfold held readBytes
  split at h
  · cases h
  · cases h; simp [Except.toOption]
  · cases h
  · cases h; simp [Except.toOption]

theorem leadsTo?_of_openForWriting {fs : FileSystem} {p : Path} {loc : Location} {content : ByteArray}
    (h : fs.openForWriting p = .ok (loc, content)) : fs.leadsTo? p = some loc := by
  obtain ⟨node, hr, -⟩ := exists_of_openForWriting h
  exact leadsTo?_of_resolve hr

/-- After a file was written the same paths can be opened, at the same places, and hold what they held, but for those
that lead to it. -/
theorem openForWriting_set {fs : FileSystem} {written : Location} (hw : fs.Writable written) (content : ByteArray)
    (p : Path) :
    ((fs.set written (.file content)).openForWriting p).toOption =
      (fs.openForWriting p).toOption.map fun x => (x.1, if x.1 = written then content else x.2) := by
  unfold openForWriting
  cases hr : fs.resolve p true with
  | error e =>
    obtain ⟨e', he⟩ := exists_resolve_set_error hw content hr
    simp [he, Except.toOption]
  | ok found =>
    obtain ⟨loc, node⟩ := found
    have hnode := node?_of_resolve hr
    rw [resolve_set hw content hr]
    by_cases heq : loc = written
    · subst heq
      obtain hn | ⟨old, hn⟩ := hw.free <;> rw [hn] at hnode <;> simp [hnode, Except.toOption]
    · rw [if_neg heq]
      cases node with
      | none => simp [heq, Except.toOption]
      | some n => cases n <;> simp [heq, Except.toOption]

theorem opens_set {fs : FileSystem} {written : Location} (hw : fs.Writable written) (content : ByteArray) :
    (fs.set written (.file content)).opens = fs.opens := by
  funext p
  simp [opens, openForWriting_set hw content p]

/-- A file that was written is opened again, with what was written. -/
theorem openForWriting_set_self {fs : FileSystem} {p : Path} {loc : Location} {old : ByteArray}
    (h : fs.openForWriting p = .ok (loc, old)) (content : ByteArray) :
    (fs.set loc (.file content)).openForWriting p = .ok (loc, content) := by
  obtain ⟨node, hr, hw⟩ := exists_of_openForWriting h
  simp [openForWriting, resolve_set hw content hr]

theorem isFile_set_self {fs : FileSystem} {p : Path} {loc : Location} {old : ByteArray}
    (h : fs.openForWriting p = .ok (loc, old)) (content : ByteArray) :
    (fs.set loc (.file content)).isFile p = true := by
  obtain ⟨node, hr, hw⟩ := exists_of_openForWriting h
  simp [isFile, lookup, resolve_set hw content hr]

/-- What adding to a file comes to. -/
theorem append_of_openForWriting {fs : FileSystem} {p : Path} {loc : Location} {content : ByteArray}
    (h : fs.openForWriting p = .ok (loc, content)) (header bytes : ByteArray) :
    fs.append p header bytes =
      .ok (fs.set loc (.file ((if content.size = 0 then header else content) ++ bytes))) := by
  simp [append, h, Except.map]

theorem exists_append_error {fs : FileSystem} {p : Path} (h : fs.opens p = false) (header bytes : ByteArray) :
    ∃ e, fs.append p header bytes = .error e := by
  unfold opens at h
  cases ho : fs.openForWriting p with
  | error e => exact ⟨e, by simp [append, ho, Except.map]⟩
  | ok opened => simp [ho, Except.toOption] at h

end FileSystem

namespace DecisionLog

/-- A text goes to the first candidate that can be opened. -/
theorem appendTo_eq (fs : FileSystem) (text : String) (candidates : List Path) :
    appendTo fs text candidates = (candidates.find? fs.opens).bind fun p =>
      (fs.append p (Utf8.encode header) (Utf8.encode text)).toOption.map (p, ·) := by
  induction candidates with
  | nil => rfl
  | cons p rest ih =>
    rw [appendTo]
    cases ho : fs.opens p with
    | false =>
      obtain ⟨e, he⟩ := FileSystem.exists_append_error ho (Utf8.encode header) (Utf8.encode text)
      rw [he, List.find?_cons_of_neg (by simp [ho])]
      exact ih
    | true =>
      obtain ⟨loc, content, hopen⟩ := FileSystem.exists_of_opens ho
      simp only [List.find?_cons_of_pos ho, Option.bind_some, FileSystem.append_of_openForWriting hopen]
      rfl

/-- Adds some decisions to the log, one after the other: what became of each, and the changed file system. -/
def recordAll (log : DecisionLog) (fs : FileSystem) : List Decision → List (Except Unwritable Path) × FileSystem
  | [] => ([], fs)
  | d :: ds =>
    let (result, fs) := log.record fs d
    let (results, fs) := recordAll log fs ds
    (result :: results, fs)

theorem recordAll_cons (log : DecisionLog) (fs : FileSystem) (d : Decision) (ds : List Decision) :
    log.recordAll fs (d :: ds) = ((log.record fs d).1 :: (log.recordAll (log.record fs d).2 ds).1,
      (log.recordAll (log.record fs d).2 ds).2) := rfl

/-- The sections of some decisions, one after the other. -/
def sections (ds : List Decision) : String :=
  String.join (ds.map Decision.entry)

theorem sections_cons (d : Decision) (ds : List Decision) : sections (d :: ds) = d.entry ++ sections ds := by
  rw [sections, List.map_cons, String.join_cons, sections]

/-- What a file is made to hold before the first section is added to it. -/
def titled (content : ByteArray) : ByteArray :=
  if content.size = 0 then Utf8.encode header else content

theorem size_titled_ne_zero (content : ByteArray) : (titled content).size ≠ 0 := by
  unfold titled
  split
  · decide
  · assumption

theorem titled_append (content bytes : ByteArray) : titled (titled content ++ bytes) = titled content ++ bytes := by
  have hne : (titled content ++ bytes).size ≠ 0 := by
    have := size_titled_ne_zero content
    rw [ByteArray.size_append]
    omega
  rw [titled, if_neg hne]

theorem titled_eq (content : ByteArray) :
    titled content = content ++ if content.size = 0 then Utf8.encode header else .empty := by
  unfold titled
  split
  · next h => rw [ByteArray.size_eq_zero_iff.mp h, ByteArray.empty_append]
  · rw [ByteArray.append_empty]

variable {log : DecisionLog} {fs : FileSystem} {c : Path}

theorem record_of_opens (h : log.candidates.find? fs.opens = some c) {loc : Location} {content : ByteArray}
    (ho : fs.openForWriting c = .ok (loc, content)) (d : Decision) :
    log.record fs d = (.ok c, fs.set loc (.file (titled content ++ Utf8.encode d.entry))) := by
  have hadded : appendTo fs d.entry log.candidates =
      some (c, fs.set loc (.file (titled content ++ Utf8.encode d.entry))) := by
    rw [appendTo_eq, h, Option.bind_some, FileSystem.append_of_openForWriting ho]
    rfl
  rw [record, hadded]

/-- All decisions are added to what the first candidate that can be opened holds. -/
theorem recordAll_of_opens (h : log.candidates.find? fs.opens = some c) {loc : Location} {content : ByteArray}
    (ho : fs.openForWriting c = .ok (loc, content)) (d : Decision) (ds : List Decision) :
    log.recordAll fs (d :: ds) = ((d :: ds).map fun _ => .ok c,
      fs.set loc (.file (titled content ++ Utf8.encode (sections (d :: ds))))) := by
  induction ds generalizing fs content d with
  | nil => simp [recordAll, record_of_opens h ho, sections]
  | cons d' ds ih =>
    -- the file holds something by now, so that no further title is written
    obtain ⟨-, -, hw⟩ := FileSystem.exists_of_openForWriting ho
    have hfirst : log.candidates.find? (fs.set loc (.file (titled content ++ Utf8.encode d.entry))).opens = some c := by
      rw [FileSystem.opens_set hw, h]
    have hsections : Utf8.encode d.entry ++ Utf8.encode (sections (d' :: ds)) =
        Utf8.encode (sections (d :: d' :: ds)) := by
      rw [sections_cons d, Utf8.encode_append]
    rw [recordAll_cons, record_of_opens h ho, ih hfirst (FileSystem.openForWriting_set_self ho _), FileSystem.set_set,
      titled_append, ByteArray.append_assoc, hsections]
    rfl

/-- The decisions `ds` were all added to the file at `c`, with the title before them if it held nothing, and nothing else
was changed. -/
structure Grows (c : Path) (fs : FileSystem) (ds : List Decision) (results : List (Except Unwritable Path))
    (after : FileSystem) : Prop where
  results : results = ds.map fun _ => .ok c
  held : after.held c = fs.held c ++
    (if (fs.held c).size = 0 ∧ ds ≠ [] then Utf8.encode header else .empty) ++ Utf8.encode (sections ds)
  isFile : ds ≠ [] → after.isFile c = true
  opens : after.opens = fs.opens
  leadsTo? : ∀ p, after.leadsTo? p = fs.leadsTo? p
  others : ∀ loc, fs.leadsTo? c ≠ some loc → after.node? loc = fs.node? loc

theorem grows_nil (c : Path) (fs : FileSystem) : Grows c fs [] [] fs where
  results := rfl
  held := by simp [sections, Utf8.encode, String.join]
  isFile h := absurd rfl h
  opens := rfl
  leadsTo? _ := rfl
  others _ _ := rfl

theorem grows_of_opens (h : log.candidates.find? fs.opens = some c) (ds : List Decision) :
    Grows c fs ds (log.recordAll fs ds).1 (log.recordAll fs ds).2 := by
  cases ds with
  | nil => exact grows_nil c fs
  | cons d ds =>
    obtain ⟨loc, content, ho⟩ := FileSystem.exists_of_opens (List.find?_some h)
    obtain ⟨-, -, hw⟩ := FileSystem.exists_of_openForWriting ho
    have hopen := FileSystem.openForWriting_set_self ho (titled content ++ Utf8.encode (sections (d :: ds)))
    rw [recordAll_of_opens h ho]
    constructor
    case results => rfl
    case held =>
      rw [FileSystem.held_of_openForWriting hopen, FileSystem.held_of_openForWriting ho, titled_eq]
      simp
    case isFile => exact fun _ => FileSystem.isFile_set_self ho _
    case opens => exact FileSystem.opens_set hw _
    case leadsTo? => exact FileSystem.leadsTo?_set hw _
    case others =>
      intro other hother
      have hne : other ≠ loc := by
        rintro rfl
        exact hother (FileSystem.leadsTo?_of_openForWriting ho)
      rw [FileSystem.node?_set fs hw.ne_nil, if_neg hne]

/-- A run of decisions all go to the first candidate that can be opened: its file grows by their sections, with the title
before them if it held nothing or was not there, it stays the first that can be opened, and no other file changes.  If no
candidate can be opened every decision is refused, with the candidates in their order, and no file changes. -/
theorem recordAll_grows (log : DecisionLog) (fs : FileSystem) (ds : List Decision) :
    match log.candidates.find? fs.opens with
    | some c => Grows c fs ds (log.recordAll fs ds).1 (log.recordAll fs ds).2
    | none => log.recordAll fs ds = (ds.map fun _ => .error ⟨log.candidates⟩, fs) := by
  cases h : log.candidates.find? fs.opens with
  | some c => exact grows_of_opens h ds
  | none =>
    simp only
    induction ds with
    | nil => rfl
    | cons d ds ih =>
      have hrecord : log.record fs d = (.error ⟨log.candidates⟩, fs) := by
        rw [record, appendTo_eq, h]
        rfl
      rw [recordAll_cons, hrecord, ih]
      rfl

end DecisionLog

end NameAdvisor
