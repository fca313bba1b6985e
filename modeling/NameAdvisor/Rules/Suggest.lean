import NameAdvisor.Rules.Traits
import NameAdvisor.FileContext
import NameAdvisor.SuggestionSet

/-!
# Names suggested by rule

Each group of conventions offers a list of names.  The offers of the groups that apply are joined in a fixed
order, and the set of suggestions keeps the first of equal ones and leaves out the present name.

## Main definitions

* `functionOffers`, `variableOffers`: conventions for functions and for variables.
* `reactOffers`, `testingOffers`: conventions of a domain.
* `shortNameOffers`: longer names for very short ones.
* `Rules.suggest`: the set of all of them.
-/

namespace NameAdvisor.Rules

/-- Offers for a name that says what an event handler does. -/
def eventOffers (name : String) : List String :=
  if isEventVerb name then
    eventVerbVariants name ++ if endsWith name "Handler" then [] else [name ++ "Handler"]
  else []

/-- Offers for a name that reads a value. -/
def accessorOffers (name : String) : List String :=
  if isAccessor name then [swapStart name "get" "retrieve", swapStart name "get" "fetch"] else []

/-- Offers for a name that writes a value. -/
def mutatorOffers (name : String) : List String :=
  if isMutator name then [swapStart name "set" "update", swapStart name "set" "modify"] else []

/-- Offers for a name that gets a resource: verbs before the resource, or whole names where it tells none. -/
def resourceOffers (name : String) : List String :=
  if isResourceFetch name then
    let resource := stripResourceWords name
    if resource = "" then ["fetchData", "loadContent", "retrieveResources"]
    else ["fetch", "load", "retrieve"].map (· ++ Text.capitalized resource)
  else []

def validationOffers (name : String) : List String :=
  if isValidation name then
    [checkToValidate name, replaceValidationVerb name "is" ++ "Valid", replaceValidationVerb name "ensure" ++ "Valid"]
  else []

def initializationOffers (name : String) : List String :=
  if isInitialization name then ["initialize", "setup", "create"].map (replaceInitVerb name) else []

def functionOffers (name : String) : List String :=
  eventOffers name ++ accessorOffers name ++ mutatorOffers name ++ resourceOffers name ++ validationOffers name ++
    initializationOffers name

def dataOffers (name : String) : List String :=
  if isDataHolder name then
    ["payload", "response", "result", "content"] ++
      if isCollectionLike name then ["items", "collection", "elements"] else []
  else []

def counterOffers (name : String) : List String :=
  if isCounter name then ["counter", "index", "position"] else []

def flagOffers (name : String) : List String :=
  if isUnprefixedFlag name then ["is" ++ Text.capitalized name, "has" ++ Text.capitalized name] else []

def shortNameOffers (name : String) : List String :=
  if isShort name then [name ++ "Value", "temp" ++ Text.capitalized name] else []

def variableOffers (name : String) : List String :=
  dataOffers name ++ counterOffers name ++ flagOffers name ++ shortNameOffers name

/-- Offers in a file of components or hooks: of the four conventions at most one applies. -/
def reactOffers (name : String) (kind : IdentifierKind) : List String :=
  if startsUpper name then
    Text.capitalized name ::
      if !endsWith name "Component" && 4 < charCount name then [name ++ "Component"] else []
  else if kind.isFunctionLike && !startsWith name "use" then ["use" ++ Text.capitalized name]
  else if kind.isFunctionLike && isUiEvent name && !startsWith name "handle" then
    ["handle" ++ Text.capitalized name, "on" ++ Text.capitalized name]
  else if !kind.isFunctionLike && isStateLike name then
    let base := stripStateWord name
    if base = "" then ["value", "state", "data"]
    else [Text.lowered base, Text.lowered base ++ "State"]
  else []

def testingOffers (name : String) (kind : IdentifierKind) : List String :=
  if kind.isFunctionLike && isTestLike name then
    let base := stripTestWord name
    if base = "" then [] else ["should" ++ Text.capitalized base, "it" ++ Text.capitalized base]
  else []

def kindOffers (name : String) (kind : IdentifierKind) : List String :=
  if kind.isFunctionLike then functionOffers name else variableOffers name

def domainOffers (name : String) (kind : IdentifierKind) (domain : Domain) : List String :=
  (if domain.isReact then reactOffers name kind else []) ++
    if domain = .testing then testingOffers name kind else []

/-- Everything that the conventions offer, in order, repetitions included. -/
def offers (name : String) (kind : IdentifierKind) (file : FileContext) : List String :=
  kindOffers name kind ++ domainOffers name kind file.domain ++ shortNameOffers name

/-- The names suggested by rule. -/
def suggest (name : String) (kind : IdentifierKind) (file : FileContext) : SuggestionSet :=
  .ofList name (offers name kind file)

end NameAdvisor.Rules
