import NameAdvisor.Proofs.Advice.Report
import NameAdvisor.Scan

/-!
# Whom a report names

A report names the provider that answered, and a scan prints that name after the suggestions.  A provider that offers
only names that the rules suggest has added nothing to the report, and is named all the same.

## Main definitions

* `PromptContext.Repeats`: providers that offer only names that the rules suggest.
-/

namespace NameAdvisor

open NameSource

variable {π : Type} [NameSource π]

/-- Every name that the provider offers is one that the rules suggest. -/
def PromptContext.Repeats (q : PromptContext) (p : π) : Prop :=
  ∀ name ∈ offered q p, name ∈ q.byRule

theorem PromptContext.byProvider_eq_nil_iff (q : PromptContext) (p : π) :
    q.byProvider (some p) = [] ↔ q.Repeats p := by
  simp [byProvider, Repeats, List.filter_eq_nil_iff]

/-- A finding ends with the source of its suggestions: the provider that is named, or the rules. -/
theorem Finding.exists_text_eq (f : Finding) :
    ∃ front, f.text = front ++ "  (" ++ f.report.provider.getD "rules" ++ ")\n" :=
  ⟨_, rfl⟩

namespace Advisor

variable (a : Advisor π) (q : PromptContext)

theorem provider_step :
    (a.step q).report.provider = (answering? a.policy q a.providers).map fun p => (kind (consulted q p)).label := by
  rw [step_report, report_eq]

/-- Something was added exactly if a provider answered that does not just repeat the rules. -/
theorem aiCount_step_pos_iff :
    0 < (a.step q).report.aiCount ↔ ∃ p, answering? a.policy q a.providers = some p ∧ ¬ q.Repeats p := by
  have hcount : (a.step q).report.aiCount = (q.byProvider (answering? a.policy q a.providers)).length := by
    rw [step_report, report_eq]
  rw [hcount, List.length_pos_iff]
  cases answering? a.policy q a.providers with
  | none => simp [PromptContext.byProvider]
  | some p => simp [q.byProvider_eq_nil_iff]

/-- The provider of a report is named rightly unless it repeats the rules. -/
theorem isSome_provider_step_iff :
    ((a.step q).report.provider.isSome = true ↔ 0 < (a.step q).report.aiCount) ↔
      ¬ ∃ p, answering? a.policy q a.providers = some p ∧ q.Repeats p := by
  rw [provider_step, aiCount_step_pos_iff]
  cases answering? a.policy q a.providers with
  | none => simp
  | some p => simp

/-- A report names the provider that answered, and so does a scan that prints it.  A provider that added a name is
always named; one that added none is named exactly if it answered and repeats the rules. -/
theorem attribution_of_mem_run (qs : List PromptContext) : ∀ s ∈ a.run qs,
    let answering := answering? s.before.policy s.question s.before.providers
    let label := answering.map fun p => (kind (consulted s.question p)).label
    s.report.provider = label ∧
      (∀ i : Identifier, ∃ front, (Finding.mk i s.report).text = front ++ "  (" ++ label.getD "rules" ++ ")\n") ∧
      (0 < s.report.aiCount → s.report.provider.isSome = true) ∧
      ((s.report.provider.isSome = true ↔ 0 < s.report.aiCount) ↔
        ¬ ∃ p, answering = some p ∧ s.question.Repeats p) := by
  apply forall_mem_run
  intro a q answering label
  have hlabel : (a.step q).report.provider = label := provider_step a q
  refine ⟨hlabel, ?_, ?_, isSome_provider_step_iff a q⟩
  · intro i
    rw [← hlabel]
    exact Finding.exists_text_eq ⟨i, (a.step q).report⟩
  · intro hpos
    obtain ⟨p, hp, -⟩ := (aiCount_step_pos_iff a q).mp hpos
    have hanswering : answering = some p := hp
    simp [hlabel, label, hanswering]

/-- A provider that adds a name to those of the rules is asked again and then repeats them. -/
theorem attribution_of_run_getUser :
    let q : PromptContext := ⟨"getUser", .function, "", {}⟩
    let a : Advisor Scripted :=
      ⟨.auto, [{ kind := .openai, replies := [.text "loadUser, fetchUser", .text "fetchUser ,retrieveUser,getUser"] }]⟩
    let first := a.step q
    let second := first.after.step q
    first ∈ a.run [q, q] ∧ second ∈ a.run [q, q] ∧
      first.report = ⟨["retrieveUser", "fetchUser", "loadUser"], 2, some "OpenAI", 1, false⟩ ∧
      second.report = ⟨["retrieveUser", "fetchUser"], 2, some "OpenAI", 0, false⟩ ∧
      0 < first.report.aiCount ∧ first.report.provider.isSome = true ∧
      (∃ p, answering? second.before.policy q second.before.providers = some p ∧ q.Repeats p) := by
  intro q a first second
  have hfirst : first ∈ a.run [q, q] := List.mem_cons_self
  have hsecond : second ∈ a.run [q, q] := List.mem_cons_of_mem _ List.mem_cons_self
  have hpos : 0 < first.report.aiCount := by decide +kernel
  have hnone : ¬ (second.report.provider.isSome = true ↔ 0 < second.report.aiCount) := by decide +kernel
  obtain ⟨-, -, hnamed, -⟩ := attribution_of_mem_run a [q, q] first hfirst
  obtain ⟨-, -, -, hiff⟩ := attribution_of_mem_run a [q, q] second hsecond
  exact ⟨hfirst, hsecond, by decide +kernel, by decide +kernel, hpos, hnamed hpos, not_not.mp (hiff.not.mp hnone)⟩

/-- A provider is named as the source of a report to which it added nothing. -/
theorem named_without_addition :
    let q : PromptContext := ⟨"getUser", .function, "", {}⟩
    let a : Advisor Scripted := ⟨.auto, [{ kind := .openai, replies := [.text "fetchUser"] }]⟩
    let report := (a.step q).report
    ¬ (report.provider.isSome = true ↔ 0 < report.aiCount) ∧
      (Finding.mk { name := "getUser", kind := .function, line := some 1 } report).text =
        "     1  function getUser: retrieveUser, fetchUser  (OpenAI)\n" := by
  decide +kernel

end Advisor

end NameAdvisor
