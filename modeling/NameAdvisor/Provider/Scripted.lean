import NameAdvisor.Provider.Source

/-!
# Scripted providers

## Main definitions

* `Reply`: an answer of a script, perhaps after a delay.
* `Scripted`: a provider that gives the answers of its script one after the other and counts how it is used.
-/

namespace NameAdvisor

/-- An answer of a script. -/
inductive Reply where
  /-- The text of an answer. -/
  | text (s : String)
  /-- A failure. -/
  | failure (s : String)
  /-- The inner answer after a delay. -/
  | delayed (ms : Nat) (inner : Reply)
  deriving DecidableEq, Repr, Inhabited

/-- The outcome of an answer once all delays are over. -/
def Reply.outcome : Reply → Except ProviderError String
  | .text s => .ok s
  | .failure s => .error (.other s)
  | .delayed _ inner => inner.outcome

/-- A provider that follows a script. -/
structure Scripted where
  kind : ProviderKind
  available : Bool := true
  /-- The answers that are left. -/
  replies : List Reply := []
  /-- How often the provider was probed. -/
  probes : Nat := 0
  /-- How many questions were put to the provider. -/
  completions : Nat := 0
  deriving DecidableEq, Repr, Inhabited

namespace Scripted

/-- The failure of question number `n` when the script is at its end. -/
def noReply (n : Nat) : ProviderError :=
  .other ("MockProvider: no reply scripted for call " ++ toString n)

/-- Finding out whether the provider is ready counts as a probe. -/
def probe (s : Scripted) : Bool × Scripted :=
  (s.available, { s with probes := s.probes + 1 })

/-- A question takes the next answer of the script. -/
def complete (s : Scripted) : Except ProviderError String × Scripted :=
  match s.replies with
  | [] => (.error (noReply s.completions), { s with completions := s.completions + 1 })
  | reply :: rest => (reply.outcome, { s with replies := rest, completions := s.completions + 1 })

instance : NameSource Scripted where
  kind := Scripted.kind
  probe := probe
  question _ := PromptContext.chatQuestion
  complete s _ := s.complete

end Scripted

end NameAdvisor
