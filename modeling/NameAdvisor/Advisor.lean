import NameAdvisor.Provider.Source
import NameAdvisor.Provider.Policy
import NameAdvisor.Rules.Suggest
import NameAdvisor.Fallback

/-!
# Advice on a name

Suggestions come from the rules first, then from the providers that the policy allows, and from the names of last
resort if there are none.

## Main definitions

* `Advisor`: a policy and the providers.
* `Report`: the suggestions for a name and where they come from.
* `Advisor.resolve`: the report on a name, and the advisor after it.
-/

namespace NameAdvisor

/-- A policy and the providers that it chooses from. -/
structure Advisor (π : Type) where
  policy : ProviderPolicy
  providers : List π

/-- The suggestions for a name and where they come from. -/
structure Report where
  /-- The suggestions in order. -/
  suggestions : List String
  /-- How many of them the rules gave. -/
  ruleCount : Nat
  /-- The label of the provider that answered, if one did. -/
  provider : Option String
  /-- How many of them the provider added. -/
  aiCount : Nat
  /-- Whether they are the names of last resort. -/
  usedFallback : Bool
  deriving DecidableEq, Repr, Inhabited

namespace Report

/-- The members of a report as JSON, in order. -/
def members (r : Report) : List (String × Json) :=
  [("suggestions", .strings r.suggestions), ("ruleCount", .nat r.ruleCount)] ++
    (match r.provider with
    | some label => [("provider", .string label)]
    | none => []) ++
    [("aiCount", .nat r.aiCount), ("usedFallback", .bool r.usedFallback)]

def toJson (r : Report) : Json :=
  .object r.members

end Report

namespace Advisor

variable {π : Type} [NameSource π]

/-- What a provider contributed: its label and the names it gave. -/
structure Contribution where
  label : Option String
  names : List String

/-- Probes a provider and puts the question to it if it is ready; nothing unless it gives at least one name. -/
def askOne (c : PromptContext) (p : π) : Option Contribution × π :=
  match NameSource.probe p with
  | (false, p) => (none, p)
  | (true, p) =>
    let (r, p) := NameSource.suggest p c
    (if r.suggestions.isEmpty then none else some ⟨r.provider, r.suggestions.names⟩, p)

def askSingle (wanted : ProviderKind) (c : PromptContext) : List π → Option Contribution × List π
  | [] => (none, [])
  | p :: rest =>
    if NameSource.kind p = wanted then
      let (r, p) := askOne c p
      (r, p :: rest)
    else
      let (r, rest) := askSingle wanted c rest
      (r, p :: rest)

/-- Asks the providers in turn until one gives names. -/
def askInOrder (c : PromptContext) : List π → Option Contribution × List π
  | [] => (none, [])
  | p :: rest =>
    match askOne c p with
    | (some r, p) => (some r, p :: rest)
    | (none, p) =>
      let (r, rest) := askInOrder c rest
      (r, p :: rest)

def ask (policy : ProviderPolicy) (c : PromptContext) (providers : List π) : Option Contribution × List π :=
  match policy with
  | .rules => (none, providers)
  | .single wanted => askSingle wanted c providers
  | .auto => askInOrder c providers

/-- The report on a name for which the rules gave `rules` and a provider `contribution`. -/
def report (name : String) (kind : IdentifierKind) (rules : SuggestionSet) (contribution : Option Contribution) :
    Report :=
  let all := match contribution with
    | some c => rules.extend c.names
    | none => rules
  { suggestions := if all.isEmpty then (Fallback.suggest name kind).names else all.names
    ruleCount := rules.size
    provider := contribution.bind (·.label)
    aiCount := all.size - rules.size
    usedFallback := all.isEmpty }

/-- The report on a name, and the advisor after it. -/
def resolve (a : Advisor π) (name : String) (kind : IdentifierKind) (context : String) (file : FileContext) :
    Report × Advisor π :=
  let (contribution, providers) := ask a.policy ⟨name, kind, context, file⟩ a.providers
  (report name kind (Rules.suggest name kind file) contribution, { a with providers })

end Advisor

end NameAdvisor
