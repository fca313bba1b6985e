import NameAdvisor.Proofs.DecisionLog.Section
import NameAdvisor.Proofs.Review.Scan
import NameAdvisor.Proofs.Rules.Characters

/-!
# What a review writes into its log

The names that a review offers stand on one line if the name that they are for does: what providers answer is cut at
blanks, and the rules and the names of last resort make no line feed of other characters.  So each decision is logged as
one section, and nothing that a provider answers can look like a section or hide one.
-/

namespace NameAdvisor

open Text NameSource

variable {π : Type} [NameSource π]

/-! ## Names on one line -/

/-- No name in an answer holds a line feed. -/
theorem Answer.oneLine_of_mem_names {text s : String} (h : s ∈ names text) : OneLine s := by
  have hname : isName s = true := (List.mem_filter.mp h).2
  have hblank : s.toList.any isBlank = false := by simpa using (Bool.and_eq_true_iff.mp hname).2
  rintro c hc rfl
  have hfeed : isBlank '\n' = false := by simpa using List.any_eq_false.mp hblank '\n' hc
  exact absurd hfeed (by decide)

theorem NameSource.oneLine_of_mem_offered {q : PromptContext} {p : π} {s : String} (h : s ∈ offered q p) :
    OneLine s := by
  unfold offered at h
  split at h
  · cases h
  · unfold PromptContext.namesIn at h
    split at h
    · exact Answer.oneLine_of_mem_names (SuggestionSet.mem_names_ofList.mp h).1
    · cases h

/-- Whatever the providers answer, what a report suggests for a name of one line is on one line. -/
theorem Advisor.oneLine_of_mem_suggestions {a : Advisor π} {q : PromptContext} (hq : OneLine q.current) {s : String}
    (h : s ∈ (a.step q).report.suggestions) : OneLine s := by
  simp only [step_report, report_eq] at h
  split at h
  · exact Fallback.allWithin_suggest_fallback caseClosed_ne_lineFeed hq q.kind s h
  · obtain hrule | hprovider := List.mem_append.mp h
    · exact Rules.allWithin_suggest caseClosed_ne_lineFeed hq q.kind q.file s hrule
    · have hoffered := (List.mem_filter.mp hprovider).1
      cases hanswering : answering? a.policy q a.providers with
      | none => simp [hanswering] at hoffered
      | some p => exact oneLine_of_mem_offered (by simpa [hanswering] using hoffered)

namespace Review

variable {now : Timestamp} {log : DecisionLog}

/-! ## Decisions -/

/-- What is offered at a visit is what some step of an advisor suggests there. -/
theorem exists_step_of_menus {visits : List Visit} {a : Advisor π}
    (h : visits.map (·.menu.suggestions) = (a.run (visits.map Visit.prompt)).map (·.report.suggestions)) {v : Visit}
    (hv : v ∈ visits) : ∃ a' : Advisor π, v.menu.suggestions = (a'.step v.prompt).report.suggestions := by
  induction visits generalizing a with
  | nil => cases hv
  | cons first visits ih =>
    obtain ⟨hfirst, hrest⟩ := List.cons_eq_cons.mp h
    obtain rfl | hm := List.mem_cons.mp hv
    · exact ⟨a, hfirst⟩
    · exact ih hrest hm

/-- The name that was chosen is the present one or one of those that were offered. -/
theorem Visit.selected_cases {v : Visit} {selected : String} (h : v.selected? = some selected) :
    selected = v.menu.identifier.name ∨ selected ∈ v.menu.suggestions := by
  obtain ⟨⟨line, choice⟩, -, hchosen⟩ := Option.bind_eq_some_iff.mp h
  cases choice with
  | keep => exact .inl (Option.some.inj hchosen).symm
  | select n => exact .inr (List.mem_of_getElem? hchosen)
  | quit => cases hchosen

/-- A decision quotes nothing but names and a path; those that were offered do not get in the way. -/
theorem Visit.quotable_decision {v : Visit} (h : ∀ s ∈ v.menu.suggestions, OneLine s) {time : Timestamp} {d : Decision}
    (hd : v.decision? time = some d) (hfile : OneLine d.file.text) (hname : OneLine d.identifier.name) : d.Quotable := by
  obtain ⟨selected, hselected, rfl⟩ := Option.map_eq_some_iff.mp hd
  refine ⟨hfile, hname, h, ?_⟩
  obtain rfl | hm := Visit.selected_cases hselected
  · exact hname
  · exact h selected hm

/-- Every decision of a course that is about a file and a name of one line each is on lines of its own. -/
theorem Covers.quotable {c₀ c : Course π} {reached : List Path} (h : Covers now log c₀ reached c) {v : Visit}
    (hv : v ∈ c.visits) {time : Timestamp} {d : Decision} (hd : v.decision? time = some d) (hfile : OneLine d.file.text)
    (hname : OneLine d.identifier.name) : d.Quotable := by
  obtain ⟨a, ha⟩ := exists_step_of_menus h.added.menus hv
  obtain ⟨selected, -, rfl⟩ := Option.map_eq_some_iff.mp hd
  refine Visit.quotable_decision (fun s hs => ?_) hd hfile hname
  rw [ha] at hs
  exact Advisor.oneLine_of_mem_suggestions (q := v.prompt) hname hs

/-- What the visits of a course leave behind is what their decisions do, one after the other. -/
theorem recorded_eq (fs : FileSystem) (visits : List Visit) :
    recorded now log fs visits = (log.recordAll fs (visits.filterMap (·.decision? now))).2 := by
  unfold recorded
  generalize visits.filterMap (·.decision? now) = ds
  induction ds generalizing fs with
  | nil => rfl
  | cons d ds ih => exact ih _

/-- However the providers answer and the input replies, a review leaves its decisions in the log, one after the other, and
each is written as one section if its file and its name are each on one line.  If all are, the headings in the log are
those of the decisions, so that no name that was offered can look like a section, split one or hide one. -/
theorem converse_logs_sections (advisor : Advisor π) (fs : FileSystem) (log : DecisionLog) (files : List Path)
    (now : Timestamp) (lines : List ByteArray) :
    let started := start advisor fs log files
    let t := converse now started.2 lines
    let c := Course.ofFiles now log advisor fs files (readable lines)
    let ds := c.visits.filterMap (·.decision? now)
    Stops t started.1 c ∧ t.review.fileSystem = (log.recordAll fs ds).2 ∧
      (∀ v ∈ c.visits, ∀ (time : Timestamp) (d : Decision), v.decision? time = some d → OneLine d.file.text →
        OneLine d.identifier.name → IsSection d.entry) ∧
      ((∀ d ∈ ds, OneLine d.file.text ∧ OneLine d.identifier.name) →
        (split '\n' (DecisionLog.sections ds)).filter isHeading = ds.map Decision.heading) := by
  intro started t c ds
  obtain ⟨reached, left, -, hcovers, -⟩ :=
    exists_covers now log (Course.initial advisor fs files (readable lines)) rfl rfl rfl files
  have hstops : Stops t started.1 c := stops_of_ends (start_ends advisor fs log files now (readable lines))
  refine ⟨hstops, ?_, ?_, ?_⟩
  · rw [hstops.fileSystem, ← recorded_eq]
    exact hcovers.added.fileSystem
  · intro v hv time d hd hfile hname
    exact (hcovers.quotable hv hd hfile hname).isSection_entry
  · intro hall
    refine DecisionLog.filter_isHeading_sections fun d hd => ?_
    obtain ⟨v, hv, hdecision⟩ := List.mem_filterMap.mp hd
    exact hcovers.quotable hv hdecision (hall d hd).1 (hall d hd).2

/-- A provider that answers with line feeds and headings of its own, of which one name is offered and chosen. -/
theorem converse_logs_sections_of_forged_reply :
    let fs : FileSystem := { entries := [(["a.ts"], .file (Utf8.encode "let a = 1\n"))] }
    let log : DecisionLog := ⟨[⟨"log"⟩]⟩
    let advisor : Advisor Scripted := ⟨.auto, [{ kind := .openai, replies :=
      [.text "x`\n\n## forged, ## b, alpha\n,\u2028,`, two words"] }]⟩
    let lines := [Utf8.encode "3\n"]
    let t := converse default (start advisor fs log [⟨"a.ts"⟩]).2 lines
    let c := Course.ofFiles default log advisor fs [⟨"a.ts"⟩] (readable lines)
    ∃ v d, c.visits = [v] ∧ v.decision? default = some d ∧ d.suggestions = ["aValue", "tempA", "alpha", "`"] ∧
      d.selected = "alpha" ∧ t.review.fileSystem = (log.recordAll fs [d]).2 ∧ IsSection d.entry ∧
      (split '\n' (DecisionLog.sections [d])).filter isHeading = [d.heading] := by
  intro fs log advisor lines t c
  obtain ⟨-, hlog, hsections, hheadings⟩ := converse_logs_sections advisor fs log [⟨"a.ts"⟩] default lines
  have hdecided : c.visits.map (fun v => (v.decision? default).map fun d =>
      (d.suggestions, d.selected, d.file.text, d.identifier.name)) =
        [some (["aValue", "tempA", "alpha", "`"], "alpha", "a.ts", "a")] := by
    decide +kernel
  obtain ⟨v, hvisits, hv⟩ := List.map_eq_singleton_iff.mp hdecided
  obtain ⟨d, hd, hquotes⟩ := Option.map_eq_some_iff.mp hv
  simp only [Prod.mk.injEq] at hquotes
  obtain ⟨hsuggest, hselected, hfile, hname⟩ := hquotes
  have hfile' : OneLine d.file.text := hfile ▸ by decide
  have hname' : OneLine d.identifier.name := hname ▸ by decide
  have hds : c.visits.filterMap (·.decision? default) = [d] := by simp [hvisits, hd]
  rw [hds] at hlog hheadings
  exact ⟨v, d, hvisits, hd, hsuggest, hselected, hlog, hsections v (hvisits ▸ List.mem_singleton_self v) default d hd
    hfile' hname', hheadings (by simp [hfile', hname'])⟩

end Review

end NameAdvisor
