import NameAdvisor.Proofs.DecisionLog.Growth
import NameAdvisor.Proofs.Text.Lines

/-!
# Sections of the log

A section quotes names and a path as they are.  As long as these hold no line feed, a section has nine lines of which
only the first looks like a heading; so a log shows a heading for each of its decisions, and no other.

## Main definitions

* `IsSection`: texts of the shape of a section.
* `Decision.Quotable`: decisions of which everything that is quoted is on one line.
-/

namespace NameAdvisor

open Text

namespace Path

variable {P : Char → Prop} {p : Path}

theorem subset_of_mem_pieces {cs piece : List Char} (h : piece ∈ pieces cs) : piece ⊆ cs := by
  induction cs generalizing piece with
  | nil => simp_all [pieces]
  | cons c cs ih =>
    unfold pieces at h
    split at h
    · next first rest hp =>
      have ihs : first ⊆ cs ∧ ∀ piece ∈ rest, piece ⊆ cs := by simpa [hp] using @ih
      split at h
      · obtain rfl | rfl | hm := by simpa using h
        · exact List.nil_subset _
        · exact List.subset_cons_of_subset c ihs.1
        · exact List.subset_cons_of_subset c (ihs.2 piece hm)
      · obtain rfl | hm := by simpa using h
        · exact List.cons_subset_cons c ihs.1
        · exact List.subset_cons_of_subset c (ihs.2 piece hm)
    · simp_all

theorem within_of_mem_steps (h : Within P p.text) {s : String} (hs : .name s ∈ p.steps) : Within P s := by
  simp only [steps, List.mem_append, List.mem_map, List.mem_filter] at hs
  obtain (htop | ⟨piece, ⟨hpiece, -⟩, hname⟩) | hlast := hs
  · split at htop <;> simp at htop
  · unfold Component.ofPiece at hname
    split at hname
    · cases hname
    · split at hname
      · cases hname
      · cases hname
        exact h.of_subset (subset_of_mem_pieces hpiece)
  · split at hlast <;> simp at hlast

theorem mem_steps_of_mem_components {c : Component} (hc : c ∈ p.components) : c ∈ p.steps := by
  unfold components at hc
  split at hc
  · cases hc
  · next first rest hsteps =>
    rw [hsteps]
    exact List.cons_subset_cons first (List.filter_subset_self _) hc

/-- The name of a file holds no character that its path does not hold. -/
theorem within_fileName? (h : Within P p.text) {s : String} (hs : p.fileName? = some s) : Within P s := by
  unfold fileName? at hs
  split at hs
  · next hlast =>
    cases hs
    exact within_of_mem_steps h (mem_steps_of_mem_components (List.mem_of_getLast? hlast))
  · cases hs

end Path

/-! ## Lines of a section -/

theorem Timestamp.oneLine_zeroPadded (width n : Nat) : OneLine (zeroPadded width n) := by
  refine within_ofList.mpr fun c hc => ?_
  obtain hc | hc := List.mem_append.mp hc
  · rw [List.eq_of_mem_replicate hc]
    decide
  · exact ne_lineFeed_of_mem_toDigits c hc

theorem Timestamp.oneLine_yearText (y : Int) : OneLine (yearText y) := by
  unfold yearText
  split
  · exact oneLine_zeroPadded _ _
  · refine within_append.mpr ⟨?_, oneLine_zeroPadded _ _⟩
    split <;> decide

theorem Timestamp.oneLine_text (t : Timestamp) : OneLine t.text := by
  have hsep : OneLine "-" ∧ OneLine "T" ∧ OneLine ":" ∧ OneLine "+00:00" := by decide
  simp only [text, within_append]
  simp only [oneLine_yearText, oneLine_zeroPadded, hsep, and_self]

theorem IdentifierKind.oneLine_name (kind : IdentifierKind) : OneLine kind.name := by
  cases kind <;> decide

theorem Domain.oneLine_name (domain : Domain) : OneLine domain.name := by
  cases domain <;> decide

namespace Decision

/-- Everything that a section quotes is on one line. -/
structure Quotable (d : Decision) : Prop where
  file : OneLine d.file.text
  name : OneLine d.identifier.name
  suggestions : ∀ s ∈ d.suggestions, OneLine s
  selected : OneLine d.selected

theorem oneLine_code {s : String} (h : OneLine s) : OneLine (code s) := by
  have htick : OneLine "`" := by decide
  exact within_append.mpr ⟨within_append.mpr ⟨htick, h⟩, htick⟩

theorem oneLine_lineText (d : Decision) : OneLine d.lineText := by
  unfold lineText
  split
  · exact oneLine_toString _
  · decide

variable {d : Decision}

theorem oneLine_fileName (h : OneLine d.file.text) : OneLine d.fileName := by
  unfold fileName
  cases hn : d.file.fileName? with
  | none => exact h
  | some s => exact Path.within_fileName? h hn

theorem Quotable.oneLine_lines (h : d.Quotable) : ∀ s ∈ d.lines, OneLine s := by
  have hsuggestions : OneLine (", ".intercalate (d.suggestions.map code)) := by
    refine within_intercalate (by decide) fun s hs => ?_
    obtain ⟨name, hname, rfl⟩ := List.mem_map.mp hs
    exact oneLine_code (h.suggestions name hname)
  simp only [lines, List.forall_mem_cons, within_append]
  exact ⟨⟨⟨⟨by decide, d.time.oneLine_text⟩, by decide⟩, oneLine_fileName h.file⟩,
    ⟨by decide, oneLine_code h.file⟩, ⟨by decide, d.identifier.kind.oneLine_name⟩, ⟨by decide, d.oneLine_lineText⟩,
    ⟨by decide, oneLine_code h.name⟩, ⟨by decide, d.fileContext.domain.oneLine_name⟩, ⟨by decide, hsuggestions⟩,
    ⟨by decide, oneLine_code h.selected⟩, by decide, List.forall_mem_nil _⟩

end Decision

/-! ## The shape of a section -/

/-- Whether a line starts a section of the log. -/
def isHeading (line : String) : Bool :=
  "## ".toList.isPrefixOf line.toList

/-- Whether a line is a point of the list in a section. -/
def isPoint (line : String) : Bool :=
  "- **".toList.isPrefixOf line.toList

/-- The text has nine lines, each with its line feed: a heading, the seven points of a list and an empty line.  No line
but the first is a heading. -/
structure IsSection (text : String) : Prop where
  count_lineFeed : text.toList.count '\n' = 9
  exists_lines : ∃ heading points, split '\n' text = (heading :: points) ++ ["", ""] ∧ isHeading heading = true ∧
    points.length = 7 ∧ ∀ point ∈ points, isPoint point = true
  notHeading : ∀ line ∈ (split '\n' text).tail, isHeading line = false

namespace Decision

/-- The first line of a section. -/
def heading (d : Decision) : String :=
  "## " ++ d.time.text ++ " - " ++ d.fileName

theorem isHeading_heading (d : Decision) : isHeading d.heading = true := by
  simp [isHeading, heading]

/-- The lines of a section are its heading, seven points and an empty line. -/
theorem exists_lines_eq (d : Decision) : ∃ points, d.lines = (d.heading :: points) ++ [""] ∧ points.length = 7 ∧
    ∀ point ∈ points, isPoint point = true := by
  refine ⟨(d.lines.drop 1).dropLast, rfl, rfl, ?_⟩
  simp [lines, isPoint]

theorem isHeading_of_isPoint {line : String} (h : isPoint line = true) : isHeading line = false := by
  obtain ⟨rest, hrest⟩ := List.isPrefixOf_iff_prefix.mp h
  simp [isHeading, ← hrest, List.isPrefixOf]

/-- Of the lines of a section only the first is a heading. -/
theorem isHeading_of_mem_tail (d : Decision) : ∀ line ∈ d.lines.tail, isHeading line = false := by
  obtain ⟨points, hlines, -, hpoints⟩ := d.exists_lines_eq
  rw [hlines, List.cons_append, List.tail_cons, List.forall_mem_append]
  exact ⟨fun point hpoint => isHeading_of_isPoint (hpoints point hpoint), by decide⟩

theorem filter_isHeading_lines (d : Decision) : d.lines.filter isHeading = [d.heading] := by
  have htail : d.lines.tail.filter isHeading = [] := by simpa using d.isHeading_of_mem_tail
  have hcons : d.lines = d.heading :: d.lines.tail := rfl
  rw [hcons, List.filter_cons_of_pos d.isHeading_heading, htail]

theorem entry_eq (d : Decision) : d.entry = written d.lines := rfl

variable {d : Decision}

/-- A decision whose quotes are each on one line is logged as one section. -/
theorem Quotable.isSection_entry (h : d.Quotable) : IsSection d.entry := by
  have hsplit := split_written h.oneLine_lines
  obtain ⟨points, hlines, hlength, hpoints⟩ := d.exists_lines_eq
  constructor
  case count_lineFeed => exact count_written h.oneLine_lines
  case exists_lines =>
    refine ⟨d.heading, points, ?_, d.isHeading_heading, hlength, hpoints⟩
    rw [entry_eq, hsplit, hlines, List.append_assoc]
    rfl
  case notHeading =>
    rw [entry_eq, hsplit, List.tail_append_of_ne_nil (by simp [lines]), List.forall_mem_append]
    exact ⟨d.isHeading_of_mem_tail, by decide⟩

end Decision

namespace DecisionLog

theorem sections_eq (ds : List Decision) : sections ds = written (ds.flatMap Decision.lines) := by
  induction ds with
  | nil => rfl
  | cons d ds ih =>
    rw [sections_cons, ih, Decision.entry_eq, written, written, written, List.flatMap_cons, List.map_append,
      String.join_append]

/-- The lines of the sections of some decisions are those of each of them, in their order. -/
theorem split_sections {ds : List Decision} (h : ∀ d ∈ ds, d.Quotable) :
    split '\n' (sections ds) = ds.flatMap Decision.lines ++ [""] := by
  rw [sections_eq, split_written]
  intro s hs
  obtain ⟨d, hd, hline⟩ := List.mem_flatMap.mp hs
  exact (h d hd).oneLine_lines s hline

/-- The headings among these lines are those of the decisions, in their order. -/
theorem filter_isHeading_sections {ds : List Decision} (h : ∀ d ∈ ds, d.Quotable) :
    (split '\n' (sections ds)).filter isHeading = ds.map Decision.heading := by
  have hlast : [""].filter isHeading = [] := by decide
  simp only [split_sections h, List.filter_append, List.filter_flatMap, Decision.filter_isHeading_lines, hlast,
    List.append_nil]
  exact List.map_eq_flatMap.symm

end DecisionLog

end NameAdvisor
