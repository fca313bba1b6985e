import NameAdvisor.Provider.Error
import NameAdvisor.Provider.Question
import NameAdvisor.Provider.Answer

/-!
# Sources of names

What all providers have in common: they can be probed, and they answer questions with a text or fail.  Asking
never fails: a failure counts as an answer without names.

## Main definitions

* `NameSource`: providers, whose state changes when they are used.
* `Response`: the names that a provider gave, and its label.
* `NameSource.suggest`: a question put to a provider.
-/

namespace NameAdvisor

/-- The names that a provider gave, and the label of the provider if it answered. -/
structure Response where
  suggestions : SuggestionSet
  provider : Option String := none

namespace Response

def empty (current : String) : Response :=
  { suggestions := .empty current }

def toJson (r : Response) : Json :=
  .object ([("suggestions", .strings r.suggestions.names)] ++
    match r.provider with
    | some label => [("provider", .string label)]
    | none => [])

end Response

/-- Providers of names. -/
class NameSource (π : Type) where
  /-- What a provider is. -/
  kind : π → ProviderKind
  /-- Whether a provider is ready, and the provider after it was asked that. -/
  probe : π → Bool × π
  /-- The wording of a question. -/
  question : π → PromptContext → String
  /-- The answer to a question, and the provider after it. -/
  complete : π → String → Except ProviderError String × π

namespace NameSource

variable {π : Type} [NameSource π]

def suggest (p : π) (c : PromptContext) : Response × π :=
  match complete p (question p c) with
  | (.ok text, p) => ({ suggestions := Answer.suggestions text c.current, provider := some (kind p).label }, p)
  | (.error _, p) => (.empty c.current, p)

end NameSource

end NameAdvisor
