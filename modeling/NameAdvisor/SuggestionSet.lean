/-!
# Suggested names

Names suggested for an identifier, in the order in which they first came up, without repetitions and without
the identifier's own name.  A set keeps a list for the order and a membership table; the two always agree.

## Main definitions

* `SuggestionSet`: the names suggested for a current name.
* `SuggestionSet.insert`, `SuggestionSet.extend`: further suggestions.
* `SuggestionSet.tryInsert`: a further suggestion, and whether it was one.
* `SuggestionSet.firstSeen`: a list without its repetitions and without the current name, which is what the names of
  a set amount to.
-/

namespace NameAdvisor

/-- The names suggested for `current`, in order, and a table of them that the last comer heads. -/
structure SuggestionSet where
  current : String
  names : List String := []
  seen : List String := []
  deriving Repr, Inhabited

namespace SuggestionSet

def empty (current : String) : SuggestionSet :=
  { current }

def contains (s : SuggestionSet) (name : String) : Bool :=
  s.seen.contains name

/-- Whether `name` would be a further suggestion. -/
def admits (s : SuggestionSet) (name : String) : Bool :=
  name != s.current && !s.contains name

/-- Adds `name` at the end unless it is the current name or was suggested before. -/
def insert (s : SuggestionSet) (name : String) : SuggestionSet :=
  if s.admits name then { s with names := s.names ++ [name], seen := name :: s.seen } else s

/-- Adds `name` and says yes, or says no if it is the current name or was suggested before. -/
def tryInsert (s : SuggestionSet) (name : String) : Bool × SuggestionSet :=
  if s.admits name then (true, s.insert name) else (false, s)

/-- Adds each of `names` in turn. -/
def extend (s : SuggestionSet) (names : List String) : SuggestionSet :=
  names.foldl insert s

def size (s : SuggestionSet) : Nat :=
  s.names.length

def isEmpty (s : SuggestionSet) : Bool :=
  s.names.isEmpty

/-- The set of the suggestions `names` for `current`. -/
def ofList (current : String) (names : List String) : SuggestionSet :=
  (empty current).extend names

/-- Two sets are equal when they suggest the same names in the same order for the same current name. -/
instance : BEq SuggestionSet where
  beq s t := s.current == t.current && s.names == t.names

/-- The members of a list at their first places, without those already in `seen`. -/
def firstSeen (seen : List String) : List String → List String
  | [] => []
  | name :: rest => if seen.contains name then firstSeen seen rest else name :: firstSeen (name :: seen) rest

@[simp] theorem extend_nil (s : SuggestionSet) : s.extend [] = s := rfl

@[simp] theorem extend_cons (s : SuggestionSet) (name : String) (names : List String) :
    s.extend (name :: names) = (s.insert name).extend names := rfl

@[simp] theorem extend_append (s : SuggestionSet) (xs ys : List String) :
    s.extend (xs ++ ys) = (s.extend xs).extend ys := by
  simp [extend, List.foldl_append]

@[simp] theorem current_insert (s : SuggestionSet) (name : String) : (s.insert name).current = s.current := by
  unfold insert
  split <;> rfl

@[simp] theorem current_extend (s : SuggestionSet) (names : List String) :
    (s.extend names).current = s.current := by
  induction names generalizing s with
  | nil => rfl
  | cons name names ih => simp [ih]

end SuggestionSet

end NameAdvisor
