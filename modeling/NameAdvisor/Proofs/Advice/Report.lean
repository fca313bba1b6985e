import NameAdvisor.Proofs.Advice.Consultation
import NameAdvisor.Proofs.Fallback
import NameAdvisor.Provider.Scripted

/-!
# What a report says

Every report on a name has something to offer, and its counts tell where the names come from: first those of the
rules, then what the provider that answered adds to them, and the names of last resort only if there are neither.

## Main definitions

* `Report.Accounts`: a report that says this of a question and of the provider that answered it.
-/

namespace NameAdvisor

open NameSource SuggestionSet

variable {π : Type} [NameSource π]

/-- The names that the rules suggest for a question. -/
def PromptContext.byRule (q : PromptContext) : List String :=
  (Rules.suggest q.current q.kind q.file).names

/-- The names that a provider, if one answers, adds to those that the rules suggest. -/
def PromptContext.byProvider (q : PromptContext) (answering : Option π) : List String :=
  (answering.elim [] (offered q)).filter (· ∉ q.byRule)

/-- The report accounts for its names when `answering` is the provider that answers the question. -/
structure Report.Accounts (q : PromptContext) (answering : Option π) (r : Report) : Prop where
  suggestions_ne_nil : r.suggestions ≠ []
  nodup_suggestions : r.suggestions.Nodup
  current_notMem_suggestions : q.current ∉ r.suggestions
  usedFallback_iff : r.usedFallback = true ↔ r.ruleCount = 0 ∧ r.aiCount = 0
  length_suggestions : r.usedFallback = false → r.suggestions.length = r.ruleCount + r.aiCount
  take_suggestions : r.usedFallback = false → r.suggestions.take r.ruleCount = q.byRule
  drop_suggestions : r.usedFallback = false → r.suggestions.drop r.ruleCount = q.byProvider answering
  provider : r.provider = answering.map fun p => (kind (consulted q p)).label
  fallback : r.usedFallback = true →
    r.suggestions = (Fallback.suggest q.current q.kind).names ∧ r.provider = none

namespace Advisor

theorem sound_rules (q : PromptContext) : (Rules.suggest q.current q.kind q.file).Sound :=
  sound_ofList _ _

theorem current_rules (q : PromptContext) : (Rules.suggest q.current q.kind q.file).current = q.current :=
  current_ofList _ _

/-- The set of all suggestions, before the names of last resort. -/
theorem names_extend_offered (q : PromptContext) (p : π) :
    ((Rules.suggest q.current q.kind q.file).extend (offered q p)).names = q.byRule ++ q.byProvider (some p) := by
  obtain ⟨hn, hc⟩ := nodup_offered q p
  exact (sound_rules q).names_extend_of_nodup hn (by rwa [current_rules])

/-- A report in terms of the two lists that it joins. -/
theorem report_eq (q : PromptContext) (answering : Option π) :
    report q.current q.kind (Rules.suggest q.current q.kind q.file) (answering.map (contributed q)) =
      { suggestions := if q.byRule ++ q.byProvider answering = [] then (Fallback.suggest q.current q.kind).names
          else q.byRule ++ q.byProvider answering
        ruleCount := q.byRule.length
        provider := answering.map fun p => (kind (consulted q p)).label
        aiCount := (q.byProvider answering).length
        usedFallback := (q.byRule ++ q.byProvider answering).isEmpty } := by
  cases answering with
  | none =>
    simp [report, PromptContext.byProvider, PromptContext.byRule, SuggestionSet.isEmpty, SuggestionSet.size]
  | some p =>
    have hn := names_extend_offered q p
    simp only [report, contributed, Option.map_some, SuggestionSet.isEmpty, SuggestionSet.size, hn,
      List.isEmpty_iff, List.length_append, Option.bind_some]
    simp [PromptContext.byRule]

theorem nodup_byRule_append (q : PromptContext) (answering : Option π) :
    (q.byRule ++ q.byProvider answering).Nodup ∧ q.current ∉ q.byRule ++ q.byProvider answering := by
  have hs : ∃ s : SuggestionSet, s.Sound ∧ s.current = q.current ∧
      s.names = q.byRule ++ q.byProvider answering := by
    cases answering with
    | none => exact ⟨_, sound_rules q, current_rules q, by simp [PromptContext.byProvider, PromptContext.byRule]⟩
    | some p =>
      exact ⟨_, (sound_rules q).extend (offered q p), by rw [current_extend, current_rules], names_extend_offered q p⟩
  obtain ⟨s, hs, hc, hn⟩ := hs
  exact ⟨hn ▸ hs.nodup, hn ▸ hc ▸ hs.current_notMem⟩

/-- Where the rules give nothing, a provider that offers a name adds it. -/
theorem byProvider_of_byRule_nil {q : PromptContext} (h : q.byRule = []) (answering : Option π) :
    q.byProvider answering = answering.elim [] (offered q) := by
  simp [PromptContext.byProvider, h]

theorem accounts_step (a : Advisor π) (q : PromptContext) :
    (a.step q).report.Accounts q (answering? a.policy q a.providers) := by
  rw [step_report, report_eq]
  have hp : ∀ p, answering? a.policy q a.providers = some p → offered q p ≠ [] := fun _ => offered_of_answering?
  generalize answering? a.policy q a.providers = answering at hp ⊢
  obtain ⟨hnodup, hcurrent⟩ := nodup_byRule_append q answering
  by_cases hall : q.byRule ++ q.byProvider answering = []
  -- a provider answers with a name, which is added where the rules give nothing: so none answers here
  · obtain ⟨hr, ha⟩ := List.append_eq_nil_iff.1 hall
    have hnone : answering = none := by
      cases answering with
      | none => rfl
      | some p => exact absurd ((byProvider_of_byRule_nil hr (some p)).symm.trans ha) (hp p rfl)
    subst hnone
    have hf := Fallback.sound_suggest q.current q.kind
    refine ⟨?_, ?_, ?_, ?_, ?_, ?_, ?_, rfl, ?_⟩
    · simpa [hall] using Fallback.suggest_ne_nil q.current q.kind
    · simpa [hall] using hf.nodup
    · simpa [hall] using hf.current_notMem
    all_goals simp [hr, ha]
  · refine ⟨?_, ?_, ?_, ?_, ?_, ?_, ?_, rfl, ?_⟩
    · simp [hall]
    · simpa [hall] using hnodup
    · simpa [hall] using hcurrent
    · simp [List.isEmpty_iff]
    all_goals simp [hall]

/-- Every report in a run of questions accounts for its names. -/
theorem accounts_of_mem_run (a : Advisor π) (qs : List PromptContext) : ∀ s ∈ a.run qs,
    s.report.Accounts s.question (answering? s.before.policy s.question s.before.providers) := by
  apply forall_mem_run
  exact accounts_step

/-- A rule and a provider that fails are followed by one that repeats the rule and adds a name of its own. -/
theorem accounts_of_run_getUser :
    let q : PromptContext := ⟨"getUser", .function, "", {}⟩
    let a : Advisor Scripted := ⟨.auto, [{ kind := .copilot, replies := [.failure "down"] },
      { kind := .openai, replies := [.delayed 5 (.text "fetchUser, getUser, loadUser")] }]⟩
    a.step q ∈ a.run [q] ∧ (a.step q).report.Accounts q (answering? a.policy q a.providers) ∧
      (a.step q).report = ⟨["retrieveUser", "fetchUser", "loadUser"], 2, some "OpenAI", 1, false⟩ := by
  intro q a
  exact ⟨List.mem_cons_self, accounts_of_mem_run a [q] _ List.mem_cons_self, by decide +kernel⟩

end Advisor

end NameAdvisor
