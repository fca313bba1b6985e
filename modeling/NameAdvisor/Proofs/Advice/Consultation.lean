import NameAdvisor.Advisor
import NameAdvisor.Proofs.SuggestionSet
import Mathlib.Data.List.TakeWhile

/-!
# Who is consulted about a name

A policy picks some of the providers, in their order.  Those it picks are consulted: probed, and asked if they are
ready.  The first that offers a name is the last that is consulted.

## Main definitions

* `PromptContext.namesIn`: the names that the outcome of a question holds.
* `NameSource.offered`, `NameSource.consulted`: what consulting a provider gives, and the provider after it.
* `Advisor.answering?`: the provider whose names a report takes up.
* `Advisor.run`, `Advisor.afterAll`: the steps of an advisor that is asked about one name after the other.
-/

namespace NameAdvisor

/-- The names that the outcome of a question holds; none if it is a failure. -/
def PromptContext.namesIn (q : PromptContext) : Except ProviderError String → List String
  | .ok text => (Answer.suggestions text q.current).names
  | .error _ => []

/-- The names in an answer repeat neither each other nor the current name. -/
theorem PromptContext.nodup_namesIn (q : PromptContext) (outcome : Except ProviderError String) :
    (q.namesIn outcome).Nodup ∧ q.current ∉ q.namesIn outcome := by
  cases outcome with
  | error e => exact ⟨List.nodup_nil, List.not_mem_nil⟩
  | ok text =>
    have h := SuggestionSet.sound_ofList q.current (Answer.names text)
    exact ⟨h.nodup, by simpa [namesIn, Answer.suggestions] using h.current_notMem⟩

namespace NameSource

variable {π : Type} [NameSource π]

/-- The names in the answer of `p`; none if it is not ready. -/
def offered (q : PromptContext) (p : π) : List String :=
  match probe p with
  | (false, _) => []
  | (true, p) => q.namesIn (complete p (question p q)).1

/-- The provider after it was probed, and asked if it is ready. -/
def consulted (q : PromptContext) (p : π) : π :=
  match probe p with
  | (false, p) => p
  | (true, p) => (complete p (question p q)).2

theorem nodup_offered (q : PromptContext) (p : π) : (offered q p).Nodup ∧ q.current ∉ offered q p := by
  unfold offered
  split
  · exact ⟨List.nodup_nil, List.not_mem_nil⟩
  · exact q.nodup_namesIn _

end NameSource

namespace Advisor

open NameSource

variable {π : Type} [NameSource π]

/-- What a provider contributes when it is consulted. -/
def contributed (q : PromptContext) (p : π) : Contribution :=
  ⟨some (kind (consulted q p)).label, offered q p⟩

theorem askOne_eq (q : PromptContext) (p : π) :
    askOne q p = (if offered q p = [] then none else some (contributed q p), consulted q p) := by
  unfold askOne contributed offered consulted NameSource.suggest
  rcases probe p with ⟨ready, p'⟩
  cases ready
  · simp
  · rcases h : complete p' (question p' q) with ⟨answer, p''⟩
    cases answer with
    | error e => simp [h, PromptContext.namesIn, Response.empty, SuggestionSet.empty, SuggestionSet.isEmpty]
    | ok text => simp [h, PromptContext.namesIn, SuggestionSet.isEmpty_iff]

theorem askOne_of_silent {q : PromptContext} {p : π} (h : offered q p = []) :
    askOne q p = (none, consulted q p) := by
  simp [askOne_eq, h]

theorem askOne_of_offered {q : PromptContext} {p : π} (h : offered q p ≠ []) :
    askOne q p = (some (contributed q p), consulted q p) := by
  simp [askOne_eq, h]

/-- A list starts with members that fail a test, and goes on with one that passes it or ends. -/
theorem exists_cut {α : Type} (f : α → Bool) (xs : List α) : ∃ front back, xs = front ++ back ∧
    (∀ x ∈ front, f x = false) ∧ (∀ x ∈ back.head?, f x = true) := by
  refine ⟨xs.takeWhile (!f ·), xs.dropWhile (!f ·), List.takeWhile_append_dropWhile.symm, ?_, ?_⟩
  · intro x hx
    simpa using List.mem_takeWhile_imp hx
  · intro x hx
    rw [← List.find?_eq_head?_dropWhile_not] at hx
    exact List.find?_some hx

theorem find?_append_of_cut {α : Type} {f : α → Bool} {front back : List α} (hf : ∀ x ∈ front, f x = false)
    (hb : ∀ x ∈ back.head?, f x = true) : (front ++ back).find? f = back.head? := by
  rw [List.find?_append, List.find?_eq_none.2 (by simpa using hf)]
  cases back with
  | nil => rfl
  | cons x back => simp [hb x rfl]

/-! ## Asking in order -/

theorem askInOrder_of_silent {q : PromptContext} {tried : List π} (h : ∀ p ∈ tried, offered q p = []) (later : List π) :
    askInOrder q (tried ++ later) =
      ((askInOrder q later).1, tried.map (consulted q) ++ (askInOrder q later).2) := by
  induction tried with
  | nil => rfl
  | cons p tried ih =>
    have hp := askOne_of_silent (h p List.mem_cons_self)
    have ht := ih fun p' hm => h p' (List.mem_cons_of_mem p hm)
    simp only [List.cons_append, askInOrder, hp, ht, List.map_cons]

theorem askInOrder_of_offered {q : PromptContext} {p : π} (h : offered q p ≠ []) (later : List π) :
    askInOrder q (p :: later) = (some (contributed q p), consulted q p :: later) := by
  simp only [askInOrder, askOne_of_offered h]

/-! ## Asking a single provider -/

theorem askSingle_of_other {wanted : ProviderKind} {others : List π} (h : ∀ p ∈ others, kind p ≠ wanted)
    (q : PromptContext) (later : List π) :
    askSingle wanted q (others ++ later) =
      ((askSingle wanted q later).1, others ++ (askSingle wanted q later).2) := by
  induction others with
  | nil => rfl
  | cons p others ih =>
    have hp : kind p ≠ wanted := h p List.mem_cons_self
    have ht := ih fun p' hm => h p' (List.mem_cons_of_mem p hm)
    simp only [List.cons_append, askSingle, if_neg hp, ht]

theorem askSingle_of_kind {wanted : ProviderKind} {p : π} (h : kind p = wanted) (q : PromptContext) (later : List π) :
    askSingle wanted q (p :: later) = ((askOne q p).1, consulted q p :: later) := by
  simp only [askSingle, if_pos h, askOne_eq]

/-! ## The provider that answers -/

/-- The provider that a policy lets answer a question: the first that offers a name, or the first of a kind if it
does. -/
def answering? (policy : ProviderPolicy) (q : PromptContext) (ps : List π) : Option π :=
  match policy with
  | .rules => none
  | .single wanted => (ps.find? (kind · = wanted)).filter (offered q · ≠ [])
  | .auto => ps.find? (offered q · ≠ [])

/-- The policy for a single kind: some providers of other kinds, then one of that kind, or the end. -/
theorem exists_single (wanted : ProviderKind) (ps : List π) : ∃ others later, ps = others ++ later ∧
    (∀ p ∈ others, kind p ≠ wanted) ∧ (∀ p ∈ later.head?, kind p = wanted) := by
  simpa using exists_cut (kind · = wanted) ps

/-- The policy for all kinds: some providers that offer nothing, then one that offers a name, or the end. -/
theorem exists_auto (q : PromptContext) (ps : List π) : ∃ tried later, ps = tried ++ later ∧
    (∀ p ∈ tried, offered q p = []) ∧ (∀ p ∈ later.head?, offered q p ≠ []) := by
  simpa using exists_cut (offered q · ≠ []) ps

theorem ask_fst (policy : ProviderPolicy) (q : PromptContext) (ps : List π) :
    (ask policy q ps).1 = (answering? policy q ps).map (contributed q) := by
  cases policy with
  | rules => rfl
  | single wanted =>
    obtain ⟨others, later, rfl, ho, hl⟩ := exists_single wanted ps
    have hf : (others ++ later).find? (kind · = wanted) = later.head? :=
      find?_append_of_cut (by simpa using ho) (by simpa using hl)
    simp only [ask, answering?, hf, askSingle_of_other ho]
    cases later with
    | nil => rfl
    | cons p later =>
      rw [askSingle_of_kind (hl p rfl), askOne_eq]
      by_cases hp : offered q p = [] <;> simp [hp, Option.filter]
  | auto =>
    obtain ⟨tried, later, rfl, ht, hl⟩ := exists_auto q ps
    have hf : (tried ++ later).find? (offered q · ≠ []) = later.head? :=
      find?_append_of_cut (by simpa using ht) (by simpa using hl)
    simp only [ask, answering?, hf, askInOrder_of_silent ht]
    cases later with
    | nil => rfl
    | cons p later => simp [askInOrder_of_offered (hl p rfl)]

theorem offered_of_answering? {policy : ProviderPolicy} {q : PromptContext} {ps : List π} {p : π}
    (h : answering? policy q ps = some p) : offered q p ≠ [] := by
  cases policy with
  | rules => cases h
  | single wanted => simpa using (Option.filter_eq_some_iff.1 h).2
  | auto => simpa using List.find?_some h

/-! ## Runs -/

/-- A question that was put to an advisor, with the report on it. -/
structure Step (π : Type) where
  before : Advisor π
  question : PromptContext
  report : Report
  after : Advisor π

/-- The step that a question makes of an advisor. -/
def step (a : Advisor π) (q : PromptContext) : Step π :=
  let (report, after) := a.resolve q.current q.kind q.context q.file
  ⟨a, q, report, after⟩

/-- The steps that some questions make of an advisor, one after the other. -/
def run (a : Advisor π) : List PromptContext → List (Step π)
  | [] => []
  | q :: qs => a.step q :: run (a.step q).after qs

def afterAll (a : Advisor π) : List PromptContext → Advisor π
  | [] => a
  | q :: qs => afterAll (a.step q).after qs

theorem afterAll_append (a : Advisor π) (qs qs' : List PromptContext) :
    a.afterAll (qs ++ qs') = (a.afterAll qs).afterAll qs' := by
  induction qs generalizing a with
  | nil => rfl
  | cons q qs ih => simp [afterAll, ih]

theorem run_append (a : Advisor π) (qs qs' : List PromptContext) :
    a.run (qs ++ qs') = a.run qs ++ (a.afterAll qs).run qs' := by
  induction qs generalizing a with
  | nil => rfl
  | cons q qs ih => simp [run, afterAll, ih]

@[simp] theorem length_run (a : Advisor π) (qs : List PromptContext) : (a.run qs).length = qs.length := by
  induction qs generalizing a with
  | nil => rfl
  | cons q qs ih => simp [run, ih]

/-- What holds of a single step holds of every step of a run. -/
theorem forall_mem_run {P : Step π → Prop} (h : ∀ a q, P (step a q)) (a : Advisor π) (qs : List PromptContext) :
    ∀ s ∈ a.run qs, P s := by
  induction qs generalizing a with
  | nil => simp [run]
  | cons q qs ih =>
    intro s hs
    rcases List.mem_cons.1 hs with rfl | hs
    · exact h a q
    · exact ih _ s hs

theorem step_after (a : Advisor π) (q : PromptContext) :
    (a.step q).after = { a with providers := (ask a.policy q a.providers).2 } := rfl

theorem step_report (a : Advisor π) (q : PromptContext) :
    (a.step q).report = report q.current q.kind (Rules.suggest q.current q.kind q.file)
      ((answering? a.policy q a.providers).map (contributed q)) := by
  rw [← ask_fst]
  rfl

end Advisor

end NameAdvisor
