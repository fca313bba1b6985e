import NameAdvisor.Proofs.FileSystem.Apart
import NameAdvisor.Proofs.Review.Coverage
import NameAdvisor.Provider.Scripted

/-!
# Reviews and scans agree

A scan and a review ask an advisor about the identifiers of the same files, one without a pause and the other between
the replies to its menus.  As long as the decisions are not logged into one of the files, each menu offers what the scan
reports in its place, and both leave out the same files.

## Main definitions

* `Scan.analysed`: the files that can be analysed.
* `Scan.answers`: the findings for identifiers that an advisor is asked about one after the other.
* `Review.readable`: the lines of an input up to the first that is not text.
* `Review.Stops`: a conversation that is over where a course is, or is broken off there.
-/

namespace NameAdvisor

variable {π : Type} [NameSource π]

namespace Scan

open Review (placesOf)

/-- The files that can be analysed, in order. -/
def analysed (fs : FileSystem) (files : List Path) : List (Path × Analysis) :=
  files.filterMap fun p => (Analysis.ofFile fs p).toOption.map (p, ·)

/-- What an advisor is asked about an identifier of a file. -/
def question (place : Path × FileContext × Identifier) : PromptContext :=
  ⟨place.2.2.name, place.2.2.kind, place.2.2.sourceContext, place.2.1⟩

/-- The findings for identifiers that an advisor is asked about one after the other, each with its file. -/
def answers (a : Advisor π) (places : List (Path × FileContext × Identifier)) : List (Path × Finding) :=
  places.zipWith (fun place s => (place.1, ⟨place.2.2, s.report⟩)) (a.run (places.map question))

theorem answers_append (a : Advisor π) (places places' : List (Path × FileContext × Identifier)) :
    answers a (places ++ places') = answers a places ++ answers (a.afterAll (places.map question)) places' := by
  rw [answers, List.map_append, Advisor.run_append, List.zipWith_append (by simp)]
  rfl

/-- The findings of a scan, each with its file. -/
def records (scans : List FileScan) : List (Path × Finding) :=
  scans.flatMap fun s => s.findings.map (s.file, ·)

theorem lines_eq_map_records (scans : List FileScan) :
    lines scans = (records scans).map fun r => (r.2.toJson r.1).compact := by
  simp only [lines, records, List.map_flatMap, List.map_map]
  rfl

theorem findings_eq (p : Path) (context : FileContext) (a : Advisor π) (identifiers : List Identifier) :
    (findings context a identifiers).1.map (p, ·) = answers a (identifiers.map (p, context, ·)) ∧
      (findings context a identifiers).2 = a.afterAll ((identifiers.map (p, context, ·)).map question) := by
  induction identifiers generalizing a with
  | nil => exact ⟨rfl, rfl⟩
  | cons i rest ih =>
    obtain ⟨hfound, hafter⟩ := ih (a.step (question (p, context, i))).after
    exact ⟨congrArg _ hfound, hafter⟩

section Files

variable {fs : FileSystem} {p : Path} (a : Advisor π) (rest : List Path)

/-- One step of a scan, as it stands; in brackets, since the equation is not one for `dsimp`. -/
theorem run_cons (fs : FileSystem) (p : Path) : run fs a (p :: rest) =
    match Analysis.ofFile fs p with
    | .error _ => run fs a rest
    | .ok analysis =>
      let found := findings analysis.fileContext a analysis.identifiers
      (⟨p, analysis.fileContext.domain, found.1⟩ :: (run fs found.2 rest).1, (run fs found.2 rest).2) := (rfl)

theorem run_of_error {e : AnalysisError} (h : Analysis.ofFile fs p = .error e) :
    run fs a (p :: rest) = run fs a rest := by
  rw [run_cons, h]

theorem run_of_ok {analysis : Analysis} (h : Analysis.ofFile fs p = .ok analysis) :
    (run fs a (p :: rest)).1 =
      ⟨p, analysis.fileContext.domain, (findings analysis.fileContext a analysis.identifiers).1⟩ ::
        (run fs (findings analysis.fileContext a analysis.identifiers).2 rest).1 := by
  rw [run_cons, h]

theorem analysed_of_error {e : AnalysisError} (h : Analysis.ofFile fs p = .error e) :
    analysed fs (p :: rest) = analysed fs rest := by
  simp [analysed, h, Except.toOption]

theorem analysed_of_ok {analysis : Analysis} (h : Analysis.ofFile fs p = .ok analysis) :
    analysed fs (p :: rest) = (p, analysis) :: analysed fs rest := by
  simp [analysed, h, Except.toOption]

end Files

/-- A scan asks about the identifiers of the files that can be analysed, one after the other. -/
theorem records_run (fs : FileSystem) (a : Advisor π) (files : List Path) :
    records (run fs a files).1 = answers a ((analysed fs files).flatMap placesOf) := by
  induction files generalizing a with
  | nil => rfl
  | cons p rest ih =>
    cases ha : Analysis.ofFile fs p with
    | error e => rw [run_of_error a rest ha, analysed_of_error rest ha, ih]
    | ok analysis =>
      obtain ⟨hfound, hafter⟩ := findings_eq p analysis.fileContext a analysis.identifiers
      rw [run_of_ok a rest ha, analysed_of_ok rest ha, List.flatMap_cons, answers_append, placesOf, ← hfound, ← hafter,
        ← ih]
      rfl

theorem map_file_run (fs : FileSystem) (a : Advisor π) (files : List Path) :
    (run fs a files).1.map FileScan.file = (analysed fs files).map Prod.fst := by
  induction files generalizing a with
  | nil => rfl
  | cons p rest ih =>
    cases ha : Analysis.ofFile fs p with
    | error e => rw [run_of_error a rest ha, analysed_of_error rest ha, ih]
    | ok analysis => rw [run_of_ok a rest ha, analysed_of_ok rest ha, List.map_cons, List.map_cons, ih]

end Scan

namespace Review

variable {now : Timestamp} {log : DecisionLog}

/-! ## Lines that are not text -/

/-- The lines of an input up to the first that is not text. -/
def readable : List ByteArray → List String
  | [] => []
  | line :: rest =>
    match Utf8.decode line with
    | some s => s :: readable rest
    | none => []

/-- The conversation has come as far as the course, and `said` with what it wrote is what the course wrote, with the
summary unless it was broken off. -/
structure Stops (t : Transcript π) (said : String) (c : Course π) : Prop where
  advisor : t.review.advisor = c.advisor
  fileSystem : t.review.fileSystem = c.fileSystem
  stats : t.review.stats = c.stats
  said : said ++ t.output = c.output ++ if t.brokenOff.isSome then "" else c.stats.summary

omit [NameSource π] in
theorem Ends.stops {t : Transcript π} {said : String} {c : Course π} (h : Ends t said c) : Stops t said c :=
  ⟨h.advisor, h.fileSystem, h.stats, by simp [h.said, h.brokenOff]⟩

omit [NameSource π] in
theorem Ends.of_prepend {t : Transcript π} {said text : String} {c : Course π}
    (h : Ends { t with output := text ++ t.output } said c) : Ends t (said ++ text) c :=
  ⟨h.brokenOff, h.menu, h.advisor, h.fileSystem, h.stats, h.unread, by simpa [String.append_assoc] using h.said⟩

omit [NameSource π] in
theorem Stops.prepend {t : Transcript π} {said text : String} {c : Course π} (h : Stops t (said ++ text) c) :
    Stops { t with output := text ++ t.output } said c :=
  ⟨h.advisor, h.fileSystem, h.stats, by simpa [String.append_assoc] using h.said⟩

/-- A conversation stops where it would end with the lines up to the first that is not text. -/
theorem stops_of_ends {r : Review π} {said : String} {c : Course π} {lines : List ByteArray}
    (h : Ends (converse now r ((readable lines).map Utf8.encode)) said c) : Stops (converse now r lines) said c := by
  induction lines generalizing r said with
  | nil => exact h.stops
  | cons line rest ih =>
    cases hm : r.menu with
    | none =>
      rw [converse_of_none hm] at h ⊢
      exact ⟨h.advisor, h.fileSystem, h.stats, h.said⟩
    | some m =>
      cases hd : Utf8.decode line with
      | none =>
        -- the menu stays open here, where it would be closed for want of a line
        have hr : readable (line :: rest) = [] := by simp [readable, hd]
        have ht : converse now r (line :: rest) =
            { output := m.prompt, review := r, unread := rest, brokenOff := some (Utf8.fault? line) } := by
          simp [converse, hm, hear, hd]
        rw [hr, List.map_nil, converse_nil hm] at h
        rw [ht]
        have hstats : r.stats = c.stats := h.stats
        have hsaid : said ++ (m.prompt ++ r.stats.summary) = c.output ++ c.stats.summary := h.said
        refine ⟨h.advisor, h.fileSystem, hstats, ?_⟩
        simpa [hstats, ← String.append_assoc] using hsaid
      | some s =>
        obtain rfl := Utf8.encode_of_decode hd
        have hr : readable (Utf8.encode s :: rest) = s :: readable rest := by simp [readable]
        rw [hr, List.map_cons, converse_of_cons hm] at h
        rw [converse_of_cons hm]
        exact (ih h.of_prepend).prepend

/-! ## What a course covers of a scan -/

end Review

end NameAdvisor
