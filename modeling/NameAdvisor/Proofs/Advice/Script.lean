import NameAdvisor.Proofs.Advice.Consultation
import NameAdvisor.Provider.Scripted
import Mathlib.Data.List.Forall2

/-!
# How scripted providers are used

Providers that follow a script count how often they are probed and asked.  Which of them a question touches depends
on the policy alone, and on the answers of those that come earlier.  Over a run, the answers of a provider are those
of its script in order, none left out and none given twice.

## Main definitions

* `Script`: a provider that was not used yet.
* `Script.answer`: the outcome of a question by its number.
* `Advisor.Step.Consults`: a step that touches just the providers that its policy calls for.
* `Advisor.Step.answerOf`: the outcome of the question that a provider was asked in a step.
-/

namespace NameAdvisor

open NameSource

namespace Scripted

/-- A provider that was probed once, and asked once if it is ready. -/
def used (p : Scripted) : Scripted :=
  if p.available then
    { p with probes := p.probes + 1, completions := p.completions + 1, replies := p.replies.tail }
  else { p with probes := p.probes + 1 }

/-- The outcome of the next question. -/
def next (p : Scripted) : Except ProviderError String :=
  p.complete.1

theorem complete_eq (p : Scripted) :
    p.complete = (p.next, { p with completions := p.completions + 1, replies := p.replies.tail }) := by
  unfold next complete
  cases p.replies <;> rfl

theorem consulted_eq (q : PromptContext) (p : Scripted) : consulted q p = p.used := by
  unfold consulted used
  cases h : p.available with
  | false => simp [NameSource.probe, Scripted.probe, h]
  | true => simp [NameSource.probe, Scripted.probe, NameSource.complete, complete_eq, h]

/-- A probe does not change what the next question is answered with. -/
theorem next_probe (p : Scripted) : p.probe.2.next = p.next := by
  unfold next probe complete
  cases p.replies <;> rfl

theorem offered_eq (q : PromptContext) (p : Scripted) :
    offered q p = if p.available then q.namesIn p.next else [] := by
  have hp : NameSource.probe p = (p.available, p.probe.2) := rfl
  rw [offered, hp]
  cases p.available with
  | false => rfl
  | true => exact congrArg q.namesIn p.next_probe

@[simp] theorem kind_used (p : Scripted) : p.used.kind = p.kind := by
  unfold used
  split <;> rfl

@[simp] theorem available_used (p : Scripted) : p.used.available = p.available := by
  unfold used
  split <;> rfl

end Scripted

/-- A scripted provider that was not used yet. -/
structure Script where
  kind : ProviderKind
  available : Bool
  replies : List Reply

namespace Script

/-- The provider that follows a script from its start. -/
def provider (s : Script) : Scripted :=
  { kind := s.kind, available := s.available, replies := s.replies }

/-- The outcome of question number `n`, counted from zero. -/
def answer (s : Script) (n : Nat) : Except ProviderError String :=
  match s.replies[n]? with
  | some reply => reply.outcome
  | none => .error (Scripted.noReply n)

/-- The provider has come to some point of the script by being used. -/
structure Reaches (s : Script) (p : Scripted) : Prop where
  kind : p.kind = s.kind
  available : p.available = s.available
  replies : p.replies = s.replies.drop p.completions
  completions : p.completions = if s.available then p.probes else 0

theorem reaches_provider (s : Script) : s.Reaches s.provider :=
  ⟨rfl, rfl, rfl, by simp [provider]⟩

theorem Reaches.used {s : Script} {p : Scripted} (h : s.Reaches p) : s.Reaches p.used := by
  have hc := h.completions
  have ha := h.available
  refine ⟨by simp [h.kind], by simp [ha], ?_, ?_⟩
  · cases hs : s.available <;> simp [Scripted.used, ha, hs, h.replies, List.tail_drop]
  · cases hs : s.available <;> simp_all [Scripted.used]

/-- The provider answers by the number of questions that it was asked before. -/
theorem Reaches.next {s : Script} {p : Scripted} (h : s.Reaches p) : p.next = s.answer p.completions := by
  have hr := h.replies
  unfold Scripted.next Scripted.complete answer
  rw [← List.head?_drop, ← hr]
  cases p.replies <;> rfl

end Script

namespace Advisor

/-- The providers that a step touches are those that its policy calls for. -/
def Step.Consults (s : Step Scripted) : Prop :=
  match s.before.policy with
  | .rules => s.after.providers = s.before.providers
  | .single wanted => ∃ others later, s.before.providers = others ++ later ∧ (∀ p ∈ others, p.kind ≠ wanted) ∧
      match later with
      | [] => s.after.providers = others
      | p :: rest => p.kind = wanted ∧ s.after.providers = others ++ p.used :: rest
  | .auto => ∃ tried later, s.before.providers = tried ++ later ∧
      (∀ p ∈ tried, p.available = true → s.question.namesIn p.next = []) ∧
      match later with
      | [] => s.after.providers = tried.map Scripted.used ∧ s.report.provider = none
      | p :: rest => p.available = true ∧ s.question.namesIn p.next ≠ [] ∧
          s.report.provider = some p.kind.label ∧
          s.after.providers = tried.map Scripted.used ++ p.used :: rest

theorem offered_eq_nil_iff (q : PromptContext) (p : Scripted) :
    offered q p = [] ↔ (p.available = true → q.namesIn p.next = []) := by
  rw [Scripted.offered_eq]
  cases p.available <;> simp

theorem offered_ne_nil_iff (q : PromptContext) (p : Scripted) :
    offered q p ≠ [] ↔ p.available = true ∧ q.namesIn p.next ≠ [] := by
  rw [Scripted.offered_eq]
  cases p.available <;> simp

theorem consults_step (a : Advisor Scripted) (q : PromptContext) : (a.step q).Consults := by
  obtain ⟨policy, ps⟩ := a
  unfold Step.Consults
  cases policy with
  | rules => rfl
  | single wanted =>
    obtain ⟨others, later, rfl, ho, hl⟩ := exists_single wanted ps
    refine ⟨others, later, rfl, ho, ?_⟩
    simp only [step_after, ask, askSingle_of_other ho]
    cases later with
    | nil => exact List.append_nil others
    | cons p rest =>
      have hp : kind p = wanted := hl p rfl
      exact ⟨hp, by rw [askSingle_of_kind hp, Scripted.consulted_eq]⟩
  | auto =>
    obtain ⟨tried, later, rfl, ht, hl⟩ := exists_auto q ps
    have hused : consulted q = Scripted.used := funext (Scripted.consulted_eq q)
    refine ⟨tried, later, rfl, fun p hp => (offered_eq_nil_iff q p).1 (ht p hp), ?_⟩
    simp only [step, resolve, ask, askInOrder_of_silent ht, hused]
    cases later with
    | nil => exact ⟨List.append_nil _, rfl⟩
    | cons p rest =>
      have hp := hl p rfl
      obtain ⟨ha, hn⟩ := (offered_ne_nil_iff q p).1 hp
      rw [askInOrder_of_offered hp, contributed, hused]
      exact ⟨ha, hn, by simp [report, NameSource.kind], rfl⟩

/-! ## The answers over a run -/

/-- The outcome of the question that provider number `i` was asked in a step, if its count of questions rose. -/
def Step.answerOf (i : Nat) (s : Step Scripted) : Option (Except ProviderError String) :=
  match s.before.providers[i]?, s.after.providers[i]? with
  | some p, some p' => if p.completions < p'.completions then some p.next else none
  | _, _ => none

/-- A step leaves each provider alone or uses it. -/
theorem Step.Consults.forall₂ {s : Step Scripted} (h : s.Consults) :
    List.Forall₂ (fun p p' => p' = p ∨ p' = p.used) s.before.providers s.after.providers := by
  have hsame : ∀ ps : List Scripted, List.Forall₂ (fun p p' => p' = p ∨ p' = p.used) ps ps :=
    fun ps => List.forall₂_same.2 fun _ _ => .inl rfl
  have hmap : ∀ ps : List Scripted, List.Forall₂ (fun p p' => p' = p ∨ p' = p.used) ps (ps.map Scripted.used) :=
    fun ps => List.forall₂_map_right_iff.2 (List.forall₂_same.2 fun _ _ => .inr rfl)
  unfold Step.Consults at h
  split at h
  · exact h ▸ hsame _
  · obtain ⟨others, later, hb, -, ha⟩ := h
    rw [hb]
    cases later with
    | nil => simp [ha]
    | cons p rest => exact ha.2 ▸ List.rel_append (hsame others) (.cons (.inr rfl) (hsame rest))
  · obtain ⟨tried, later, hb, -, ha⟩ := h
    rw [hb]
    cases later with
    | nil => simp [ha.1]
    | cons p rest => exact ha.2.2.2 ▸ List.rel_append (hmap tried) (.cons (.inr rfl) (hsame rest))

theorem exists_getElem?_of_forall₂ {α β : Type} {R : α → β → Prop} {xs : List α} {ys : List β}
    (h : List.Forall₂ R xs ys) {i : Nat} {x : α} (hx : xs[i]? = some x) : ∃ y, ys[i]? = some y ∧ R x y := by
  induction h generalizing i with
  | nil => simp at hx
  | @cons x' y _ _ hxy _ ih =>
    cases i with
    | zero => exact ⟨y, rfl, by simp_all⟩
    | succ i => exact ih (by simpa using hx)

/-- In a step, a provider goes on along its script by the answer that is recorded for it, or stays where it is. -/
theorem reaches_step (a : Advisor Scripted) (q : PromptContext) {i : Nat} {script : Script} {p : Scripted}
    (hp : a.providers[i]? = some p) (hr : script.Reaches p) :
    ∃ p', (a.step q).after.providers[i]? = some p' ∧ script.Reaches p' ∧
      ((p'.completions = p.completions ∧ (a.step q).answerOf i = none) ∨
        (p'.completions = p.completions + 1 ∧ (a.step q).answerOf i = some (script.answer p.completions))) := by
  have hb : (a.step q).before.providers[i]? = some p := hp
  obtain ⟨p', ha, hu⟩ := exists_getElem?_of_forall₂ (consults_step a q).forall₂ hb
  rcases hu with hu | hu <;> rw [hu] at ha
  · exact ⟨p, ha, hr, .inl ⟨rfl, by simp [Step.answerOf, hb, ha]⟩⟩
  · refine ⟨p.used, ha, hr.used, ?_⟩
    cases h : p.available with
    | false => exact .inl ⟨by simp [Scripted.used, h], by simp [Step.answerOf, hb, ha, Scripted.used, h]⟩
    | true =>
      exact .inr ⟨by simp [Scripted.used, h], by simp [Step.answerOf, hb, ha, Scripted.used, h, hr.next]⟩

/-- From wherever a provider has come to, a run goes on along its script. -/
theorem reaches_afterAll (a : Advisor Scripted) (qs : List PromptContext) {i : Nat} {script : Script} {p : Scripted}
    (hp : a.providers[i]? = some p) (hr : script.Reaches p) :
    ∃ p' n, (a.afterAll qs).providers[i]? = some p' ∧ script.Reaches p' ∧ p'.completions = p.completions + n ∧
      (a.run qs).filterMap (·.answerOf i) = (List.range' p.completions n).map script.answer := by
  -- along the questions: `n` counts those that are put to the provider
  induction qs generalizing a p with
  | nil => exact ⟨p, 0, hp, hr, rfl, rfl⟩
  | cons q qs ih =>
    obtain ⟨p₁, hp₁, hr₁, hstep⟩ := reaches_step a q hp hr
    obtain ⟨p', n, hp', hr', hn, hlog⟩ := ih _ hp₁ hr₁
    rcases hstep with ⟨hc, ho⟩ | ⟨hc, ho⟩
    · refine ⟨p', n, hp', hr', by omega, ?_⟩
      simp [run, ho, hlog, hc]
    · refine ⟨p', n + 1, hp', hr', by omega, ?_⟩
      simp [run, ho, hlog, hc, List.range'_succ]

theorem policy_of_mem_run (a : Advisor Scripted) (qs : List PromptContext) :
    ∀ s ∈ a.run qs, s.before.policy = a.policy := by
  induction qs generalizing a with
  | nil => simp [run]
  | cons q qs ih =>
    intro s hs
    rcases List.mem_cons.1 hs with rfl | hs
    · rfl
    · exact ih (a.step q).after s hs

theorem providers_afterAll_of_rules {a : Advisor Scripted} (h : a.policy = .rules) (qs : List PromptContext) :
    (a.afterAll qs).providers = a.providers := by
  induction qs generalizing a with
  | nil => rfl
  | cons q qs ih =>
    have hs : (a.step q).after.providers = a.providers := by simp [step_after, ask, h]
    exact (ih (by rw [step_after, h])).trans hs

/-- In every run over fresh scripts each step consults the providers that the policy calls for, and each provider
gives the answers of its script in order. -/
theorem run_scripts (policy : ProviderPolicy) (scripts : List Script) (qs : List PromptContext) :
    let a : Advisor Scripted := ⟨policy, scripts.map Script.provider⟩
    (∀ s ∈ a.run qs, s.before.policy = policy ∧ s.Consults) ∧
      (policy = .rules → (a.afterAll qs).providers = a.providers) ∧
      ∀ i script, scripts[i]? = some script → ∃ p, (a.afterAll qs).providers[i]? = some p ∧ script.Reaches p ∧
        (a.run qs).filterMap (·.answerOf i) = (List.range p.completions).map script.answer := by
  intro a
  refine ⟨fun s hs => ⟨policy_of_mem_run a qs s hs, ?_⟩, fun h => providers_afterAll_of_rules h qs, ?_⟩
  · exact forall_mem_run consults_step a qs s hs
  · intro i script hi
    have hp : a.providers[i]? = some script.provider := by simp [a, hi]
    obtain ⟨p, n, hp', hr, hn, hlog⟩ := reaches_afterAll a qs hp script.reaches_provider
    have hn : p.completions = n := by simpa [Script.provider] using hn
    refine ⟨p, hp', hr, ?_⟩
    rw [hlog, hn, List.range_eq_range']
    rfl

/-- A failure, a delayed answer and the end of the script, met by three questions in a row. -/
theorem run_scripts_to_end :
    let script : Script := ⟨.openai, true, [.failure "down", .delayed 5 (.text "alpha")]⟩
    let q : PromptContext := ⟨"zzz9", .variableBinding, "", {}⟩
    let a : Advisor Scripted := ⟨.auto, [⟨.copilot, false, []⟩, script].map Script.provider⟩
    [(⟨.copilot, false, []⟩ : Script), script][1]? = some script ∧
      (a.run [q, q, q]).filterMap (·.answerOf 1) =
        [.error (.other "down"), .ok "alpha", .error (Scripted.noReply 2)] := by
  intro script q a
  obtain ⟨-, -, h⟩ := run_scripts .auto [⟨.copilot, false, []⟩, script] [q, q, q]
  obtain ⟨p, hp, -, hlog⟩ := h 1 script rfl
  have hthree : ((a.afterAll [q, q, q]).providers[1]?).map Scripted.completions = some 3 := by decide +kernel
  have hc : p.completions = 3 := by
    rw [hp] at hthree
    exact Option.some.inj hthree
  exact ⟨rfl, by rw [hlog, hc]; rfl⟩

end Advisor

end NameAdvisor
