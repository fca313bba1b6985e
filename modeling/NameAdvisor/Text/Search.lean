/-!
# Parts of a text

Finding, replacing and splitting at exact parts of a text.

## Main definitions

* `contains`: whether a part stands somewhere in a text.
* `replaceFirst`: a text with its first occurrence of a part replaced.
* `split`: the pieces of a text between the occurrences of a character.
-/

namespace NameAdvisor.Text

/-- Whether the characters `part` stand in a row somewhere in `s`. -/
def containsChars (part : List Char) : List Char → Bool
  | [] => part.isEmpty
  | c :: s => part.isPrefixOf (c :: s) || containsChars part s

def contains (s part : String) : Bool :=
  containsChars part.toList s.toList

theorem containsChars_iff_infix {part s : List Char} : containsChars part s = true ↔ part <:+: s := by
  induction s with
  | nil => simp [containsChars]
  | cons c s ih => rw [containsChars, Bool.or_eq_true, List.isPrefixOf_iff_prefix, ih, List.infix_cons_iff]

theorem contains_iff_infix {s part : String} : contains s part = true ↔ part.toList <:+: s.toList :=
  containsChars_iff_infix

/-- `s` with `new` for the first occurrence of the characters `old`. -/
def replaceFirstChars (old new : List Char) : List Char → List Char
  | [] => if old.isEmpty then new else []
  | c :: s =>
    if old.isPrefixOf (c :: s) then new ++ (c :: s).drop old.length
    else c :: replaceFirstChars old new s

/-- `s` with `new` for the first occurrence of `old`. -/
def replaceFirst (s old new : String) : String :=
  String.ofList (replaceFirstChars old.toList new.toList s.toList)

/-- The pieces of `s` between the occurrences of `sep`: one more than there are occurrences. -/
def splitChars (sep : Char) : List Char → List (List Char)
  | [] => [[]]
  | c :: s =>
    if c = sep then [] :: splitChars sep s
    else
      match splitChars sep s with
      | piece :: pieces => (c :: piece) :: pieces
      | [] => [[c]]

/-- The pieces of `s` between the occurrences of `sep`. -/
def split (sep : Char) (s : String) : List String :=
  (splitChars sep s.toList).map String.ofList

@[simp] theorem splitChars_nil (sep : Char) : splitChars sep [] = [[]] := rfl

theorem splitChars_ne_nil (sep : Char) (s : List Char) : splitChars sep s ≠ [] := by
  cases s with
  | nil => simp
  | cons c s =>
    unfold splitChars
    split
    · simp
    · split <;> simp

end NameAdvisor.Text
