import NameAdvisor.Proofs.Json.OneLine
import NameAdvisor.Proofs.Review.Scan
import NameAdvisor.Proofs.Source.Declarations
import NameAdvisor.Proofs.Stored

/-!
# What a scan prints

A scan comes to the identifiers of the files that can be analysed, one after the other, and reports on each.  As JSON it
prints one line for each of them, from which a reader has the place of the identifier and the whole report.

## Main definitions

* `ScanRecord`: a line of a scan as its readers have it.
* `Scan.places`: the identifiers that a scan comes to.
* `Scan.outcome`: what a scan prints, how much it covers, and the advisor after it.
-/

namespace NameAdvisor

open Json

/-! ## Lines -/

/-- The counts are words of 64 bits. -/
def Report.FitsWords (r : Report) : Prop :=
  r.ruleCount < Nat.pow 2 64 ∧ r.aiCount < Nat.pow 2 64

def Json.Decoder.bool : Decoder Bool
  | .bool b => .ok b
  | j => .error (.wrongType j.describe "a boolean")

/-- A line of a scan as its readers have it: where a name stands, and the report on it. -/
structure ScanRecord where
  file : String
  name : String
  kind : IdentifierKind
  line : Option Nat
  report : Report
  deriving DecidableEq, Repr

namespace ScanRecord

def fields : List Field :=
  [.of "file" .string, .of "name" .string, .of "kind" IdentifierKind.decode, .of "line" (.optional .halfWord),
    .of "suggestions" (.list .string), .of "ruleCount" .word, .of "provider" (.optional .string),
    .of "aiCount" .word, .of "usedFallback" .bool]

/-- Reads a line; of its fields only the provider may be absent. -/
def decode : Decoder ScanRecord := fun j => do
  let r ← Record.ofJson "struct ScanRecord" fields j
  let file ← r.required "file" .string
  let name ← r.required "name" .string
  let kind ← r.required "kind" IdentifierKind.decode
  let line ← r.required "line" (.optional .halfWord)
  let suggestions ← r.required "suggestions" (.list .string)
  let ruleCount ← r.required "ruleCount" .word
  let provider ← r.field "provider" (.optional .string) none
  let aiCount ← r.required "aiCount" .word
  let usedFallback ← r.required "usedFallback" .bool
  return { file, name, kind, line, report := { suggestions, ruleCount, provider, aiCount, usedFallback } }

end ScanRecord

namespace Finding

/-- The line of an identifier, and `null` where it is not known. -/
def lineJson (f : Finding) : Json :=
  f.identifier.line.elim .null nat

/-- The members of a finding: where the name stands, and the report on it. -/
def members (file : Path) (f : Finding) : Members :=
  [("file", .string file.text), ("name", .string f.identifier.name), ("kind", f.identifier.kind.toJson),
    ("line", f.lineJson)] ++ f.report.members

theorem toJson_eq (file : Path) (f : Finding) : f.toJson file = .object (f.members file) := by
  unfold toJson members lineJson
  cases f.identifier.line <;> rfl

/-- The fields of a report have other names than those before them. -/
theorem nodup_names_members (file : Path) (f : Finding) : (Members.names (f.members file)).Nodup := by
  unfold members Report.members
  cases f.report.provider <;> simp

section

variable {f : Finding} (hi : f.identifier.FitsWords) (hr : f.report.FitsWords)
include hi hr

theorem readable_toJson (file : Path) : Readable depthLimit (f.toJson file) := by
  obtain ⟨hrules, hadded⟩ : f.report.ruleCount < wordLimit ∧ f.report.aiCount < wordLimit := hr
  have hline : Readable (126 + 1) f.lineJson := by
    unfold lineJson
    cases hl : f.identifier.line with
    | none => exact .null
    | some n =>
      have hn : n < 4294967296 := hi n hl
      exact .number (Nat.lt_trans hn (by decide))
  rw [toJson_eq, depthLimit_eq, readable_object_iff, members, Report.members]
  cases f.report.provider <;>
    simp [hline, IdentifierKind.toJson, strings, nat, Number.IsWord, hrules, hadded]

theorem decode_members (file : Path) : ScanRecord.decode (.object (f.members file)) =
    .ok ⟨file.text, f.identifier.name, f.identifier.kind, f.identifier.line, f.report⟩ := by
  have hs := @Lossless.string.read_write
  have hk := IdentifierKind.lossless.read_write (a := f.identifier.kind) trivial
  have hl : Decoder.optional Decoder.halfWord f.lineJson = .ok f.identifier.line :=
    (Lossless.halfWord.optional fun _ => by simp [nat]).read_write hi
  have hnames : Decoder.list Decoder.string (strings f.report.suggestions) = .ok f.report.suggestions :=
    Lossless.string.list.read_write fun _ _ => trivial
  have hrules := Lossless.word.read_write hr.1
  have hadded := Lossless.word.read_write hr.2
  have hlabel : ∀ label, Decoder.optional Decoder.string (.string label) = .ok (some label) := fun _ => rfl
  have hbool : ∀ b, Decoder.bool (.bool b) = .ok b := fun _ => rfl
  have hchecks : ∀ field ∈ ScanRecord.fields, ∀ v, Members.find? field.name (f.members file) = some v →
      field.check v = .ok () := by
    unfold members Report.members
    cases f.report.provider <;>
      simp [ScanRecord.fields, Members.find?_cons, Field.of, hs, hk, hl, hnames, hrules, hadded, hlabel, hbool,
        Except.map]
  rw [ScanRecord.decode, Record.ofJson_object_of_nodup (f.nodup_names_members file) _ hchecks]
  -- the record is read field by field; the provider is there or not
  obtain ⟨identifier, ⟨suggestions, ruleCount, provider, aiCount, usedFallback⟩⟩ := f
  cases provider <;>
    simp [members, Report.members, Record.required, Record.field, Members.find?_cons, hs, hk, hl, hnames, hrules,
      hadded, hlabel, hbool, bind, Except.bind, pure, Except.pure]

end

end Finding

/-! ## Identifiers -/

/-- The lines of the identifiers in a source are words. -/
theorem Declaration.fitsWords_of_mem_inTree {source : List Char} {t : Tree} {i : Identifier} (h : i ∈ inTree source t) :
    i.FitsWords := by
  obtain ⟨c, -, hc⟩ := List.mem_filterMap.mp h
  intro n hn
  obtain rfl : lineOf source c.focus.span.start = n := by simpa [line_of_classify? hc] using hn
  exact Nat.lt_of_le_of_lt (Nat.min_le_right ..) (by decide)

theorem Analysis.fitsWords_of_mem {fs : FileSystem} {p : Path} {analysis : Analysis} (h : ofFile fs p = .ok analysis)
    {i : Identifier} (hi : i ∈ analysis.identifiers) : i.FitsWords := by
  unfold ofFile at h
  split at h
  · cases h
  · split at h
    · cases h
    · cases h
      exact Declaration.fitsWords_of_mem_inTree hi

namespace Scan

variable {π : Type} [NameSource π]

/-- The identifiers that a scan comes to: file by file, and in each file in the order of the declarations. -/
def places (fs : FileSystem) (files : List Path) : List (Path × FileContext × Identifier) :=
  (analysed fs files).flatMap Review.placesOf

theorem ofFile_of_mem_analysed {fs : FileSystem} {files : List Path} {p : Path} {analysis : Analysis}
    (h : (p, analysis) ∈ analysed fs files) : Analysis.ofFile fs p = .ok analysis := by
  obtain ⟨p', -, hp⟩ := List.mem_filterMap.mp h
  cases hf : Analysis.ofFile fs p' with
  | error e => simp [hf, Except.toOption] at hp
  | ok found =>
    obtain ⟨rfl, rfl⟩ : p' = p ∧ found = analysis := by simpa [hf, Except.toOption] using hp
    exact hf

theorem fitsWords_of_mem_places {fs : FileSystem} {files : List Path} {place : Path × FileContext × Identifier}
    (h : place ∈ places fs files) : place.2.2.FitsWords := by
  obtain ⟨⟨p, analysis⟩, hp, hplace⟩ := List.mem_flatMap.mp h
  obtain ⟨i, hi, rfl⟩ := List.mem_map.mp hplace
  exact Analysis.fitsWords_of_mem (ofFile_of_mem_analysed hp) hi

/-! ## Runs -/

/-- What a scan prints, how much it covers, and the advisor after it. -/
structure Outcome (π : Type) where
  output : String
  totals : ScanTotals
  advisor : Advisor π

/-- The outcome of a scan, which prints JSON or text. -/
def outcome (asJson : Bool) (fs : FileSystem) (a : Advisor π) (files : List Path) : Outcome π :=
  let (scans, after) := run fs a files
  ⟨render asJson scans, totals scans, after⟩

/-- A scan that was followed by another one. -/
def Outcome.followedBy (o o' : Outcome π) : Outcome π :=
  ⟨o.output ++ o'.output, ⟨o.totals.files + o'.totals.files, o.totals.identifiers + o'.totals.identifiers⟩, o'.advisor⟩

theorem run_append (fs : FileSystem) (a : Advisor π) (files more : List Path) :
    run fs a (files ++ more) =
      ((run fs a files).1 ++ (run fs (run fs a files).2 more).1, (run fs (run fs a files).2 more).2) := by
  induction files generalizing a with
  | nil => rfl
  | cons p rest ih =>
    rw [List.cons_append, run_cons, run_cons]
    cases Analysis.ofFile fs p with
    | error e => exact ih a
    | ok analysis => simp only [ih, List.cons_append]

theorem render_append (asJson : Bool) (scans scans' : List FileScan) :
    render asJson (scans ++ scans') = render asJson scans ++ render asJson scans' := by
  cases asJson <;> simp [render, lines, text, String.join_append]

theorem totals_append (scans scans' : List FileScan) :
    totals (scans ++ scans') = ⟨(totals scans).files + (totals scans').files,
      (totals scans).identifiers + (totals scans').identifiers⟩ := by
  simp [totals]

/-- Whether a file can be read and is a source file. -/
def canAnalyse (fs : FileSystem) (p : Path) : Bool :=
  (Analysis.ofFile fs p).isOk

/-- Files that cannot be analysed leave no trace. -/
theorem run_filter (fs : FileSystem) (a : Advisor π) (files : List Path) :
    run fs a (files.filter (canAnalyse fs)) = run fs a files := by
  induction files generalizing a with
  | nil => rfl
  | cons p rest ih =>
    cases hp : Analysis.ofFile fs p with
    | error e =>
      have hskip : ¬ canAnalyse fs p := by simp [canAnalyse, hp, Except.isOk, Except.toBool]
      rw [List.filter_cons_of_neg hskip, run_of_error a rest hp]
      exact ih a
    | ok analysis =>
      have hkeep : canAnalyse fs p := by simp [canAnalyse, hp, Except.isOk, Except.toBool]
      rw [List.filter_cons_of_pos hkeep, run_cons, run_cons, hp]
      simp only [ih]

theorem snd_run (fs : FileSystem) (a : Advisor π) (files : List Path) :
    (run fs a files).2 = a.afterAll ((places fs files).map question) := by
  induction files generalizing a with
  | nil => rfl
  | cons p rest ih =>
    rw [run_cons, places]
    cases hp : Analysis.ofFile fs p with
    | error e =>
      rw [analysed_of_error rest hp]
      exact ih a
    | ok analysis =>
      have hfound := (findings_eq p analysis.fileContext a analysis.identifiers).2
      rw [analysed_of_ok rest hp, List.flatMap_cons, List.map_append, Advisor.afterAll_append, Review.placesOf, ← hfound]
      exact ih _

theorem map_heading_run (fs : FileSystem) (a : Advisor π) (files : List Path) :
    (run fs a files).1.map (fun s => (s.file, s.domain)) =
      (analysed fs files).map fun f => (f.1, f.2.fileContext.domain) := by
  induction files generalizing a with
  | nil => rfl
  | cons p rest ih =>
    cases ha : Analysis.ofFile fs p with
    | error e => rw [run_of_error a rest ha, analysed_of_error rest ha, ih]
    | ok analysis => rw [run_of_ok a rest ha, analysed_of_ok rest ha, List.map_cons, List.map_cons, ih]

theorem length_answers (a : Advisor π) (places : List (Path × FileContext × Identifier)) :
    (answers a places).length = places.length := by
  simp [answers]

theorem totals_run (fs : FileSystem) (a : Advisor π) (files : List Path) :
    totals (run fs a files).1 = ⟨(analysed fs files).length, (places fs files).length⟩ := by
  have hfiles := congrArg List.length (map_file_run fs a files)
  have hrecords := congrArg List.length (records_run fs a files)
  rw [length_answers] at hrecords
  simp only [List.length_map] at hfiles
  simp only [totals, hfiles, ScanTotals.mk.injEq, true_and]
  rw [places, ← hrecords]
  simp [records, List.length_flatMap]

theorem outcome_append (asJson : Bool) (fs : FileSystem) (a : Advisor π) (files more : List Path) :
    outcome asJson fs a (files ++ more) =
      (outcome asJson fs a files).followedBy (outcome asJson fs (outcome asJson fs a files).advisor more) := by
  simp only [outcome, run_append, render_append, totals_append, Outcome.followedBy]

/-- In its place each identifier has the line of its finding. -/
theorem getElem?_lines (fs : FileSystem) (a : Advisor π) (files : List Path) {n : Nat}
    {place : Path × FileContext × Identifier} {s : Advisor.Step π} (hplace : (places fs files)[n]? = some place)
    (hs : (a.run ((places fs files).map question))[n]? = some s) :
    (lines (run fs a files).1)[n]? = some (Finding.toJson place.1 ⟨place.2.2, s.report⟩).compact := by
  rw [lines_eq_map_records, records_run, ← places, List.getElem?_map, answers, List.getElem?_zipWith, hplace, hs]
  rfl

theorem oneLine_of_mem_lines {fs : FileSystem} {a : Advisor π} {files : List Path}
    (h : ∀ s ∈ a.run ((places fs files).map question), s.report.FitsWords) :
    ∀ line ∈ lines (run fs a files).1, Text.OneLine line := by
  intro line hline
  rw [lines_eq_map_records, records_run, ← places, answers, List.map_zipWith] at hline
  obtain ⟨n, hn, rfl⟩ := List.mem_iff_getElem.mp hline
  rw [List.getElem_zipWith]
  exact oneLine_compact (Finding.readable_toJson (fitsWords_of_mem_places (List.getElem_mem _))
    (h _ (List.getElem_mem _)) _)

/-- A scan comes to the identifiers of the files that can be analysed, in order, and its advisor reports on one after the
other.  As JSON it prints a line for each of them, an object with exactly the place of the identifier and the members of
the report, from which both are read back.  As text it prints the same findings, file by file, covers as much and leaves
the same advisor.  Files that cannot be analysed change nothing, and a scan of further files goes on where it was. -/
theorem outcome_tells_findings (fs : FileSystem) (a : Advisor π) (files : List Path)
    (h : ∀ s ∈ a.run ((places fs files).map question), s.report.FitsWords) :
    (∃ lines, Text.split '\n' (outcome true fs a files).output = lines ++ [""] ∧
      lines.length = (outcome true fs a files).totals.identifiers ∧
      ∀ (n : Nat) (p : Path) (context : FileContext) (i : Identifier) (s : Advisor.Step π),
        (places fs files)[n]? = some (p, context, i) → (a.run ((places fs files).map question))[n]? = some s →
        ∃ line members, lines[n]? = some line ∧
          parse line = .ok (.object members) ∧ (Members.names members).Nodup ∧
          members = [("file", .string p.text), ("name", .string i.name), ("kind", i.kind.toJson),
            ("line", i.line.elim .null nat)] ++ s.report.members ∧
          ScanRecord.decode (.object members) = .ok ⟨p.text, i.name, i.kind, i.line, s.report⟩) ∧
      (∃ scans : List FileScan, records scans = answers a (places fs files) ∧
        scans.map (fun s => (s.file, s.domain)) = (analysed fs files).map (fun f => (f.1, f.2.fileContext.domain)) ∧
        (outcome false fs a files).output = String.join (scans.map FileScan.text) ∧
        (outcome true fs a files).output = Text.written (lines scans)) ∧
      ∀ asJson : Bool,
        (outcome asJson fs a files).totals = ⟨(analysed fs files).length, (places fs files).length⟩ ∧
        (outcome asJson fs a files).advisor = a.afterAll ((places fs files).map question) ∧
        outcome asJson fs a (files.filter (canAnalyse fs)) = outcome asJson fs a files ∧
        ∀ more, outcome asJson fs a (files ++ more) =
          (outcome asJson fs a files).followedBy (outcome asJson fs (outcome asJson fs a files).advisor more) := by
  have htotals := totals_run fs a files
  refine ⟨⟨lines (run fs a files).1, Text.split_written (oneLine_of_mem_lines h), ?_, ?_⟩,
    ⟨(run fs a files).1, records_run fs a files, map_heading_run fs a files, rfl, rfl⟩,
    fun asJson => ⟨htotals, snd_run fs a files, by rw [outcome, run_filter, outcome], outcome_append asJson fs a files⟩⟩
  · rw [lines_eq_map_records, records_run, List.length_map, length_answers]
    exact (congrArg ScanTotals.identifiers htotals).symm
  · intro n p context i s hplace hs
    have hi : i.FitsWords := fitsWords_of_mem_places (List.mem_of_getElem? hplace)
    have hr := h s (List.mem_of_getElem? hs)
    have hparse := parse_compact (Finding.readable_toJson (f := ⟨i, s.report⟩) hi hr p)
    rw [Finding.toJson_eq] at hparse
    refine ⟨_, Finding.members p ⟨i, s.report⟩, getElem?_lines fs a files hplace hs, ?_,
      Finding.nodup_names_members p _, rfl, Finding.decode_members hi hr p⟩
    rw [Finding.toJson_eq]
    exact hparse

/-- Quotes and a line break in the name of a file and in an answer, a file that is missing, and one that is no source. -/
theorem outcome_tells_findings_of_quotes :
    let fs : FileSystem := { entries := [(["a\"\n.ts"], .file (Utf8.encode "let n = 1\nlet b = 2\n")),
      (["notes.md"], .file (Utf8.encode "let c = 3\n")), (["c.ts"], .file (Utf8.encode "let c = 3\n"))] }
    let files : List Path := [⟨"a\"\n.ts"⟩, ⟨"gone.ts"⟩, ⟨"notes.md"⟩, ⟨"c.ts"⟩]
    let a : Advisor Scripted :=
      ⟨.auto, [{ kind := .openai, replies := [.text "al\"pha\\, β", .failure "down", .text "beta, gamma"] }]⟩
    let third : ScanRecord :=
      ⟨"c.ts", "c", .variableBinding, some 1, ⟨["cValue", "tempC", "beta", "gamma"], 2, some "OpenAI", 2, false⟩⟩
    (∀ s ∈ a.run ((places fs files).map question), s.report.FitsWords) ∧
      (places fs files).map (fun place => (place.1.text, place.2.2.name)) =
        [("a\"\n.ts", "n"), ("a\"\n.ts", "b"), ("c.ts", "c")] ∧
      (outcome false fs a files).totals = ⟨2, 3⟩ ∧
      ∃ lines, Text.split '\n' (outcome true fs a files).output = lines ++ [""] ∧ lines.length = 3 ∧
        ∃ line j, lines[2]? = some line ∧ parse line = .ok j ∧ ScanRecord.decode j = .ok third := by
  intro fs files a third
  have h : ∀ s ∈ a.run ((places fs files).map question), s.report.FitsWords := by
    unfold Report.FitsWords
    decide +kernel
  obtain ⟨⟨lines, hsplit, hlength, hlines⟩, -, hrest⟩ := outcome_tells_findings fs a files h
  have htotals : (⟨(analysed fs files).length, (places fs files).length⟩ : ScanTotals) = ⟨2, 3⟩ := by decide +kernel
  have hplace : (places fs files)[2]? =
      some (⟨"c.ts"⟩, ({} : FileContext), { name := "c", kind := .variableBinding, line := some 1 }) := by
    decide +kernel
  have hreport : ((a.run ((places fs files).map question))[2]?).map Advisor.Step.report = some third.report := by
    decide +kernel
  obtain ⟨s, hs, hthird⟩ := Option.map_eq_some_iff.mp hreport
  obtain ⟨line, members, hline, hparse, -, -, hdecode⟩ := hlines 2 _ _ _ s hplace hs
  rw [hthird] at hdecode
  refine ⟨h, by decide +kernel, (hrest false).1.trans htotals, lines, hsplit, ?_, line, .object members, hline, hparse,
    hdecode⟩
  rw [hlength, (hrest true).1, htotals]

end Scan

end NameAdvisor
