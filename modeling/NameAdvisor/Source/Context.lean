import NameAdvisor.FileContext
import NameAdvisor.Source.HeaderComment
import NameAdvisor.Source.Imports
import NameAdvisor.Text.Search

/-!
# The context of a file, from its text

## Main definitions

* `Domain.ofSource`: what a file is about.
* `FileContext.ofSource`: domain, imports and header comment of a file.
-/

namespace NameAdvisor

open Text

namespace Domain

/-- The rest of `s` after the name of a component: an upper-case ASCII letter and further ASCII letters. -/
def afterComponentName? : List Char → Option (List Char)
  | c :: s => if c.isUpper then some (s.dropWhile (·.isAlpha)) else none
  | [] => none

/-- Whether `s` starts with `keyword`, the name of a component and `mark`. -/
def startsComponent (keyword : String) (mark : Char) (s : List Char) : Bool :=
  match Imports.after? keyword.toList s with
  | none => false
  | some s =>
    !(s.takeWhile isBlank).isEmpty &&
      match afterComponentName? (s.dropWhile isBlank) with
      | some s => (s.dropWhile isBlank).head? == some mark
      | none => false

/-- Whether a component is defined somewhere in `s`, as a function or as a constant. -/
def definesComponent : List Char → Bool
  | [] => false
  | c :: s =>
    startsComponent "function" '(' (c :: s) || startsComponent "const" '=' (c :: s) || definesComponent s

/-- The state hooks whose names give a file away. -/
def hooks : List String := ["useState", "useEffect", "useContext", "useReducer"]

def testCalls : List String := ["test(", "describe("]

/-- Words of network access. -/
def apiWords : List String := ["api", "fetch", "axios"]

/-- What a text is about; the more specific domain counts. -/
def ofSource (source : List Char) : Domain :=
  if definesComponent source then reactComponent
  else if hooks.any fun w => containsChars w.toList source then reactHooks
  else if testCalls.any fun w => containsChars w.toList source then testing
  else if apiWords.any fun w => containsChars w.toList source then api
  else general

end Domain

def FileContext.ofSource (source : List Char) : FileContext where
  domain := Domain.ofSource source
  imports := Imports.ofSource source
  headerComment := HeaderComment.ofSource source

end NameAdvisor
