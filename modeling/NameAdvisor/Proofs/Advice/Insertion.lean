import NameAdvisor.Proofs.Advice.Script

/-!
# One more provider

A provider that never gives a name can stand anywhere among those that are asked in turn, and nothing else changes:
neither the reports nor what becomes of the other providers, over whole runs.  Where a single provider is asked, the
same holds of each one that the policy does not choose.

## Main definitions

* `Scripted.Silent`: providers that never give a name.
* `Advisor.Unnoticed`: providers that a policy passes over, or asks in vain.
-/

namespace NameAdvisor

open NameSource

/-- A reply that gives no name, whatever the name is that it is asked about. -/
def Reply.Fruitless (r : Reply) : Prop :=
  ∀ text, r.outcome = .ok text → ∀ current, (Answer.suggestions text current).names = []

theorem Reply.fruitless_failure (s : String) : (failure s).Fruitless := by
  intro text h
  cases h

theorem Reply.fruitless_text {s : String} (h : Answer.names s = []) : (text s).Fruitless := by
  intro t ht current
  cases ht
  rw [Answer.suggestions, h]
  rfl

theorem Reply.Fruitless.delayed {r : Reply} (h : r.Fruitless) (ms : Nat) : (delayed ms r).Fruitless :=
  h

namespace Scripted

/-- The provider is not ready, or none of its replies gives a name. -/
def Silent (p : Scripted) : Prop :=
  p.available = true → ∀ r ∈ p.replies, r.Fruitless

theorem Silent.used {p : Scripted} (h : p.Silent) : p.used.Silent := by
  intro ha r hr
  rw [available_used] at ha
  refine h ha r ?_
  rw [Scripted.used, if_pos ha] at hr
  exact List.mem_of_mem_tail hr

theorem Silent.offered_eq_nil {p : Scripted} (h : p.Silent) (q : PromptContext) : offered q p = [] := by
  rw [Advisor.offered_eq_nil_iff]
  intro ha
  have hs := h ha
  unfold next complete
  cases hr : p.replies with
  | nil => rfl
  | cons r rest =>
    have hf : r.Fruitless := hs r (by simp [hr])
    change q.namesIn r.outcome = []
    cases ho : r.outcome with
    | error e => rfl
    | ok text => exact hf text ho q.current

end Scripted

namespace Advisor

/-- A provider after those in `front` that never contributes under the policy. -/
def Unnoticed (policy : ProviderPolicy) (front : List Scripted) (p : Scripted) : Prop :=
  match policy with
  | .rules => True
  | .single wanted => p.kind ≠ wanted ∨ ∃ x ∈ front, x.kind = wanted
  | .auto => p.Silent

theorem Unnoticed.of_kinds {policy : ProviderPolicy} {front front' : List Scripted} {p p' : Scripted}
    (h : Unnoticed policy front p) (hf : front'.map (·.kind) = front.map (·.kind)) (hp : p' = p ∨ p' = p.used) :
    Unnoticed policy front' p' := by
  cases policy with
  | rules => trivial
  | single wanted =>
    have hk : p'.kind = p.kind := by
      rcases hp with rfl | rfl
      · rfl
      · exact Scripted.kind_used p
    have hm : (∃ x ∈ front', x.kind = wanted) ↔ ∃ x ∈ front, x.kind = wanted := by
      rw [← List.mem_map, ← List.mem_map, hf]
    rw [Unnoticed, hk, hm]
    exact h
  | auto =>
    rcases hp with rfl | rfl
    · exact h
    · exact Scripted.Silent.used h

/-- What comes of asking is the same with `p` after those in `front`, and the others come out the same. -/
def Alike (ask : List Scripted → Option Contribution × List Scripted) (front : List Scripted) (p : Scripted)
    (back : List Scripted) : Prop :=
  ∃ front' p' back', front'.map (·.kind) = front.map (·.kind) ∧ (p' = p ∨ p' = p.used) ∧
    (ask (front ++ back)).2 = front' ++ back' ∧
    ask (front ++ p :: back) = ((ask (front ++ back)).1, front' ++ p' :: back')

theorem askInOrder_insert {p : Scripted} (h : p.Silent) (q : PromptContext) (front back : List Scripted) :
    Alike (askInOrder q) front p back := by
  -- along the providers in front: one that answers keeps the rest from being asked
  induction front with
  | nil =>
    have hp : offered q p = [] := h.offered_eq_nil q
    refine ⟨[], p.used, (askInOrder q back).2, rfl, .inr rfl, rfl, ?_⟩
    simp [askInOrder, askOne_of_silent hp, Scripted.consulted_eq]
  | cons x front ih =>
    obtain ⟨front', p', back', hk, hp, hplain, hmore⟩ := ih
    by_cases hx : offered q x = []
    · refine ⟨x.used :: front', p', back', by simp [hk], hp, ?_, ?_⟩
      · simp [askInOrder, askOne_of_silent hx, Scripted.consulted_eq, hplain]
      · simp [askInOrder, askOne_of_silent hx, Scripted.consulted_eq, hmore]
    · refine ⟨x.used :: front, p, back, by simp, .inl rfl, ?_, ?_⟩
      · simp [askInOrder_of_offered hx, Scripted.consulted_eq]
      · simp [askInOrder_of_offered hx, Scripted.consulted_eq]

theorem askSingle_insert {wanted : ProviderKind} {front : List Scripted} {p : Scripted}
    (h : p.kind ≠ wanted ∨ ∃ x ∈ front, x.kind = wanted) (q : PromptContext) (back : List Scripted) :
    Alike (askSingle wanted q) front p back := by
  -- along the providers in front: the first of the wanted kind ends the search before `p` is reached
  induction front with
  | nil =>
    have hp : kind p ≠ wanted := h.resolve_right (by simp)
    refine ⟨[], p, (askSingle wanted q back).2, rfl, .inl rfl, rfl, ?_⟩
    simp [askSingle, hp]
  | cons x front ih =>
    by_cases hx : kind x = wanted
    · refine ⟨x.used :: front, p, back, by simp, .inl rfl, ?_, ?_⟩
      · simp [askSingle_of_kind hx, Scripted.consulted_eq]
      · simp [askSingle_of_kind hx, Scripted.consulted_eq]
    · have hrest : p.kind ≠ wanted ∨ ∃ x ∈ front, x.kind = wanted := by
        rcases h with h | ⟨y, hy, hyk⟩
        · exact .inl h
        · rcases List.mem_cons.mp hy with rfl | hy
          · exact absurd hyk hx
          · exact .inr ⟨y, hy, hyk⟩
      obtain ⟨front', p', back', hk, hp, hplain, hmore⟩ := ih hrest
      refine ⟨x :: front', p', back', by simp [hk], hp, ?_, ?_⟩
      · simp [askSingle, hx, hplain]
      · simp [askSingle, hx, hmore]

theorem ask_insert {policy : ProviderPolicy} {front : List Scripted} {p : Scripted} (h : Unnoticed policy front p)
    (q : PromptContext) (back : List Scripted) : Alike (ask policy q) front p back := by
  cases policy with
  | rules => exact ⟨front, p, back, rfl, .inl rfl, rfl, rfl⟩
  | single wanted => exact askSingle_insert h q back
  | auto => exact askInOrder_insert h q front back

/-- `b` is `a` with one more provider, which goes unnoticed, after `n` others. -/
def HasExtra (n : Nat) (a b : Advisor Scripted) : Prop :=
  ∃ front p back, front.length = n ∧ Unnoticed a.policy front p ∧ a.providers = front ++ back ∧
    b = ⟨a.policy, front ++ p :: back⟩

/-- A step reports the same with one more provider, and keeps it the only difference. -/
theorem HasExtra.step {n : Nat} {a b : Advisor Scripted} (h : HasExtra n a b) (q : PromptContext) :
    (b.step q).report = (a.step q).report ∧ HasExtra n (a.step q).after (b.step q).after := by
  obtain ⟨front, p, back, hn, hu, ha, rfl⟩ := h
  obtain ⟨front', p', back', hk, hp, hplain, hmore⟩ := ask_insert hu q back
  refine ⟨?_, front', p', back', ?_, hu.of_kinds hk hp, ?_, ?_⟩
  · simp only [Advisor.step, resolve, hmore, ha]
  · rw [← hn]
    simpa using congrArg List.length hk
  · rw [step_after, ha]
    exact hplain
  · rw [step_after, step_after]
    simp only [hmore]

theorem HasExtra.run {n : Nat} {a b : Advisor Scripted} (h : HasExtra n a b) (qs : List PromptContext) :
    (b.run qs).map (·.report) = (a.run qs).map (·.report) ∧ HasExtra n (a.afterAll qs) (b.afterAll qs) := by
  induction qs generalizing a b with
  | nil => exact ⟨rfl, h⟩
  | cons q qs ih =>
    obtain ⟨hr, hs⟩ := h.step q
    obtain ⟨hrs, hextra⟩ := ih hs
    refine ⟨?_, hextra⟩
    simp only [Advisor.run, List.map_cons, hr, hrs]

/-- One more provider that goes unnoticed changes no report of a run, and leaves the other providers as they would be
without it. -/
theorem run_insert {policy : ProviderPolicy} {front : List Scripted} {p : Scripted} (h : Unnoticed policy front p)
    (back : List Scripted) (qs : List PromptContext) :
    let plain : Advisor Scripted := ⟨policy, front ++ back⟩
    let more : Advisor Scripted := ⟨policy, front ++ p :: back⟩
    (more.run qs).map (·.report) = (plain.run qs).map (·.report) ∧
      ∃ front' p' back', front'.length = front.length ∧ (plain.afterAll qs).providers = front' ++ back' ∧
        (more.afterAll qs).providers = front' ++ p' :: back' := by
  intro plain more
  have hextra : HasExtra front.length plain more := ⟨front, p, back, rfl, h, rfl, rfl⟩
  obtain ⟨hr, front', p', back', hn, -, hplain, hmore⟩ := hextra.run qs
  exact ⟨hr, front', p', back', hn, hplain, by rw [hmore]⟩

/-- Before the provider that answers stands one that fails, sends no name, and is then at the end of its script. -/
theorem run_insert_before_answer :
    let extra : Scripted := { kind := .copilot, replies := [.delayed 3 (.failure "down"), .text "two words, ,"] }
    let answering : Scripted := { kind := .openai, replies := [.text "alpha", .failure "busy", .text "beta"] }
    let q : PromptContext := ⟨"zzz9", .variableBinding, "", {}⟩
    let plain : Advisor Scripted := ⟨.auto, [answering]⟩
    let more : Advisor Scripted := ⟨.auto, [extra, answering]⟩
    Unnoticed .auto [] extra ∧
      ((more.run [q, q, q]).map (·.report) = (plain.run [q, q, q]).map (·.report) ∧
        ∃ front' p' back', front'.length = 0 ∧ (plain.afterAll [q, q, q]).providers = front' ++ back' ∧
          (more.afterAll [q, q, q]).providers = front' ++ p' :: back') ∧
      (plain.run [q, q, q]).map (·.report.suggestions) = [["alpha"], ["zzz9Value", "zzz9Data"], ["beta"]] := by
  intro extra answering q plain more
  have hsilent : Unnoticed .auto [] extra := by
    intro _ r hr
    simp only [extra, List.mem_cons, List.not_mem_nil, or_false] at hr
    rcases hr with rfl | rfl
    · exact (Reply.fruitless_failure "down").delayed 3
    · exact Reply.fruitless_text (by decide +kernel)
  exact ⟨hsilent, run_insert hsilent [answering] [q, q, q], by decide +kernel⟩

end Advisor

end NameAdvisor
