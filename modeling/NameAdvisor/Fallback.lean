import NameAdvisor.Rules.Traits
import NameAdvisor.Text.Search
import NameAdvisor.FileContext
import NameAdvisor.SuggestionSet

/-!
# Names of last resort

## Main definitions

* `Fallback.suggest`: suggestions for a name about which nothing else was found; there are always some.
-/

namespace NameAdvisor.Fallback

/-- The words that make a function an event handler. -/
def eventWords : List String := ["click", "change", "submit"]

def functionOffers (name : String) : List String :=
  let cap := Text.capitalized name
  ["process" ++ cap, "handle" ++ cap] ++
    (if eventWords.any (Text.contains name) then ["on" ++ cap] else []) ++
    match Rules.afterStart? name "get" with
    | some rest => ["fetch" ++ rest, "retrieve" ++ rest]
    | none => []

def valueOffers (name : String) : List String :=
  [name ++ "Value", name ++ "Data"] ++
    if Rules.charCount name ≤ 3 then [name ++ "Item", name ++ "Element"] else []

/-- The names of last resort for `name`. -/
def suggest (name : String) (kind : IdentifierKind) : SuggestionSet :=
  let set := SuggestionSet.ofList name (if kind.isFunctionLike then functionOffers name else valueOffers name)
  if set.isEmpty then set.extend ["improved" ++ Text.capitalized name, "better" ++ Text.capitalized name] else set

end NameAdvisor.Fallback
