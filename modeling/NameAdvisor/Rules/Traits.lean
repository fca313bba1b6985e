import NameAdvisor.Text.Words
import NameAdvisor.Text.Case

/-!
# Traits of names

What a name tells by the words in it, and the substitutions for such words.  Words count in any case unless
a trait says otherwise.

## Main definitions

* Traits: `isEventVerb`, `isAccessor`, `isMutator`, `isResourceFetch`, `isValidation`, `isInitialization`,
  `isDataHolder`, `isCollectionLike`, `isCounter`, `isUnprefixedFlag`, `isShort`, `startsUpper`, `isUiEvent`,
  `isStateLike`, `isTestLike`.
* Substitutions: `swapStart`, `eventVerbVariants`, `stripResourceWords`, `checkToValidate`, `replaceValidationVerb`,
  `replaceInitVerb`, `stripStateWord`, `stripTestWord`.
-/

namespace NameAdvisor.Rules

/-- Whether one of `words` stands in `name`. -/
def mentions (words : List String) (name : String) : Bool :=
  Words.occurs words name.toList

/-- `name` with `new` for the first of `words` that it mentions. -/
def substitute (words : List String) (new name : String) : String :=
  String.ofList (Words.replaceFirst words new.toList name.toList)

def charCount (name : String) : Nat :=
  name.toList.length

/-- Whether `name` starts with exactly the characters of `start`. -/
def startsWith (name start : String) : Bool :=
  start.toList.isPrefixOf name.toList

theorem startsWith_iff {name start : String} : startsWith name start = true ↔ ∃ rest, name = start ++ rest := by
  rw [startsWith, List.isPrefixOf_iff_prefix]
  constructor
  · rintro ⟨rest, hrest⟩
    exact ⟨String.ofList rest, by rw [← String.toList_inj, String.toList_append, String.toList_ofList, hrest]⟩
  · rintro ⟨rest, rfl⟩
    exact ⟨rest.toList, String.toList_append.symm⟩

/-- Whether `name` ends with exactly the characters of `ending`. -/
def endsWith (name ending : String) : Bool :=
  ending.toList.isSuffixOf name.toList

/-- What follows `start` at the beginning of `name`. -/
def afterStart? (name start : String) : Option String :=
  if startsWith name start then some (String.ofList (name.toList.drop start.toList.length)) else none

@[simp] theorem afterStart?_append (start rest : String) : afterStart? (start ++ rest) start = some rest := by
  rw [afterStart?, if_pos (startsWith_iff.mpr ⟨rest, rfl⟩), String.toList_append, List.drop_left, String.ofList_toList]

theorem afterStart?_eq_some_iff {name start rest : String} :
    afterStart? name start = some rest ↔ name = start ++ rest := by
  constructor
  · intro h
    by_cases hs : startsWith name start = true
    · obtain ⟨after, rfl⟩ := startsWith_iff.mp hs
      rw [afterStart?_append] at h
      rw [Option.some.inj h]
    · rw [afterStart?, if_neg hs] at h
      cases h
  · rintro rfl
    exact afterStart?_append start rest

/-- `name` with `new` for the `old` that it starts with; a name that starts otherwise is left alone. -/
def swapStart (name old new : String) : String :=
  match afterStart? name old with
  | some rest => new ++ rest
  | none => name

@[simp] theorem swapStart_append (old rest new : String) : swapStart (old ++ rest) old new = new ++ rest := by
  rw [swapStart, afterStart?_append]

/-! ## Functions -/

def eventVerbs : List String := ["handle", "process", "execute"]

def isEventVerb (name : String) : Bool :=
  mentions eventVerbs name

/-- The name with each event verb exchanged in turn; where a verb is absent the name stays as it is. -/
def eventVerbVariants (name : String) : List String :=
  [substitute ["handle"] "on" name, substitute ["process"] "transform" name, substitute ["execute"] "run" name]

/-- A `get` name of more than five characters. -/
def isAccessor (name : String) : Bool :=
  startsWith name "get" && 5 < charCount name

/-- A `set` name of more than five characters. -/
def isMutator (name : String) : Bool :=
  startsWith name "set" && 5 < charCount name

/-- The name mentions something that is fetched. -/
def isResourceFetch (name : String) : Bool :=
  mentions ["api", "fetch", "load", "request"] name

/-- The words that say how a resource is come by. -/
def resourceWords : List String := ["fetch", "get", "load", "request", "api"]

/-- What the name says of a resource, in lower case. -/
def stripResourceWords (name : String) : String :=
  Text.lowered (String.ofList (Words.removeAll resourceWords name.toList))

def validationVerbs : List String := ["check", "validate", "verify"]

def isValidation (name : String) : Bool :=
  mentions validationVerbs name

def checkToValidate (name : String) : String :=
  substitute ["check"] "validate" name

/-- The name with `new` for its first validation verb. -/
def replaceValidationVerb (name new : String) : String :=
  substitute validationVerbs new name

def initVerbs : List String := ["init", "start", "begin"]

def isInitialization (name : String) : Bool :=
  mentions initVerbs name

/-- The name with `new` for its first initialization verb. -/
def replaceInitVerb (name new : String) : String :=
  substitute initVerbs new name

/-! ## Variables -/

/-- The name mentions data as such. -/
def isDataHolder (name : String) : Bool :=
  mentions ["data", "info", "payload"] name

def isCollectionLike (name : String) : Bool :=
  Words.ends ["s", "list", "array"] name.toList

/-- A name of fewer than seven characters that mentions counting or ends in `i` or `j`. -/
def isCounter (name : String) : Bool :=
  (mentions ["count", "index", "num"] name || Words.ends ["i", "j"] name.toList) && charCount name < 7

def flagStarts : List String := ["is", "has", "should", "can"]

/-- The name mentions a flag word and does not start with one. -/
def isUnprefixedFlag (name : String) : Bool :=
  mentions ["is", "has", "should", "can", "flag"] name && !flagStarts.any (startsWith name)

/-- A name of fewer than four characters other than `id`, `i` and `j`. -/
def isShort (name : String) : Bool :=
  charCount name < 4 && !(["id", "i", "j"].contains name)

/-! ## Components, state and tests -/

/-- The first character is an upper-case letter. -/
def startsUpper (name : String) : Bool :=
  name.toList.head?.any Text.isUpper

/-- The name mentions an event of the user interface. -/
def isUiEvent (name : String) : Bool :=
  mentions ["click", "change", "submit", "input"] name

def stateWords : List String := ["state", "status", "value", "data"]

def isStateLike (name : String) : Bool :=
  mentions stateWords name

def stripStateWord (name : String) : String :=
  substitute stateWords "" name

def isTestLike (name : String) : Bool :=
  mentions ["test", "spec", "should"] name

def stripTestWord (name : String) : String :=
  substitute ["test", "spec", "should", "it"] "" name

end NameAdvisor.Rules
