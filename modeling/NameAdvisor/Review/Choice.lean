import NameAdvisor.Text.Numeral
import NameAdvisor.Text.Case

/-!
# Replies to a menu

## Main definitions

* `Choice`: what a reply chooses.
* `Choice.read`: the choice that a reply to a menu of some length makes.
-/

namespace NameAdvisor

/-- What a reply to a menu chooses. -/
inductive Choice where
  /-- The present name. -/
  | keep
  /-- The suggestion at a place, counted from zero. -/
  | select (index : Nat)
  /-- The end of the review. -/
  | quit
  deriving DecidableEq, Repr, Inhabited

namespace Choice

/-- The choice that `reply` makes among `count` suggestions: `q` ends the review, `0` keeps the name, and the
numbers from one on select a suggestion. -/
def read (reply : String) (count : Nat) : Option Choice :=
  let reply := Text.trim reply
  if Text.eqIgnoringAsciiCase reply "q" then some quit
  else
    match Numeral.readBelow Numeral.wordLimit reply with
    | none => none
    | some 0 => some keep
    | some (n + 1) => if n + 1 ≤ count then some (select n) else none

/-- A selected place lies inside the menu. -/
theorem lt_of_read_eq_select {reply : String} {count index : Nat} (h : read reply count = some (select index)) :
    index < count := by
  simp only [read] at h
  split at h
  · cases h
  · split at h
    · cases h
    · cases h
    · split at h
      · cases h
        omega
      · cases h

end Choice

end NameAdvisor
