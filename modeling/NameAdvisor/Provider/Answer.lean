import NameAdvisor.SuggestionSet
import NameAdvisor.Text.Blank
import NameAdvisor.Text.Search

/-!
# Answers of providers

An answer is a text of names separated by commas.

## Main definitions

* `Answer.names`: the names in an answer.
* `Answer.suggestions`: those names as suggestions for a current name.
-/

namespace NameAdvisor.Answer

/-- Whether a piece of an answer can be a name: it is not empty and holds no blank. -/
def isName (piece : String) : Bool :=
  !piece.toList.isEmpty && !piece.toList.any Text.isBlank

/-- The pieces between the commas of an answer, without the blanks around them. -/
def pieces (text : String) : List String :=
  (Text.split ',' text).map Text.trim

def names (text : String) : List String :=
  (pieces text).filter isName

/-- The names in an answer as suggestions for `current`. -/
def suggestions (text current : String) : SuggestionSet :=
  .ofList current (names text)

end NameAdvisor.Answer
