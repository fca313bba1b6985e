/-!
# Words inside names

Finding and replacing words in a name whatever their case.  A letter also stands for the characters that Unicode
folds to it: the long s for `s` and the Kelvin sign for `k`.

## Main definitions

* `Words.letterFits`: a character that a lower-case ASCII letter stands for.
* `Words.afterWord?`, `Words.afterAny?`: the rest of a text that starts with a word.
* `Words.occurs`, `Words.ends`: some word inside a text, or at its end.
* `Words.replaceFirst`, `Words.removeAll`: replacing the first occurrence, and dropping all of them.
-/

namespace NameAdvisor.Words

/-- Whether `c` is the lower-case ASCII letter `letter` up to case. -/
def letterFits (letter c : Char) : Bool :=
  c.toLower == letter || (letter == 's' && c == 'ſ') || (letter == 'k' && c == '\u212a')

/-- The rest of `s` after `word`, if `s` starts with it. -/
def afterWord? : List Char → List Char → Option (List Char)
  | [], s => some s
  | _ :: _, [] => none
  | letter :: word, c :: s => if letterFits letter c then afterWord? word s else none

/-- The rest of `s` after the first of `words` that it starts with. -/
def afterAny? (words : List String) (s : List Char) : Option (List Char) :=
  words.findSome? fun word => afterWord? word.toList s

/-- Whether one of `words` stands somewhere in `s`. -/
def occurs (words : List String) : List Char → Bool
  | [] => (afterAny? words []).isSome
  | c :: s => (afterAny? words (c :: s)).isSome || occurs words s

/-- Whether `s` ends with one of `words`. -/
def ends (words : List String) : List Char → Bool
  | [] => afterAny? words [] == some []
  | c :: s => words.any (fun word => afterWord? word.toList (c :: s) == some []) || ends words s

/-- `s` with `new` in the place of the first occurrence of one of `words`; where several start at one place, the
one that is listed first counts. -/
def replaceFirst (words : List String) (new : List Char) : List Char → List Char
  | [] =>
    match afterAny? words [] with
    | some rest => new ++ rest
    | none => []
  | c :: s =>
    match afterAny? words (c :: s) with
    | some rest => new ++ rest
    | none => c :: replaceFirst words new s

/-- `s` without the occurrences of `words`, taken from left to right; the fuel bounds the number of steps. -/
def removeFrom (words : List String) : Nat → List Char → List Char
  | 0, s => s
  | _, [] => []
  | fuel + 1, c :: s =>
    match afterAny? words (c :: s) with
    | some rest => removeFrom words fuel rest
    | none => c :: removeFrom words fuel s

/-- `s` without the occurrences of `words`, taken from left to right. -/
def removeAll (words : List String) (s : List Char) : List Char :=
  removeFrom words s.length s

@[simp] theorem afterWord?_nil (s : List Char) : afterWord? [] s = some s := by
  cases s <;> rfl

theorem length_of_afterWord? {word s rest : List Char} (h : afterWord? word s = some rest) :
    s.length = word.length + rest.length := by
  induction word generalizing s with
  | nil => simp_all
  | cons letter word ih =>
    cases s with
    | nil => simp [afterWord?] at h
    | cons c s =>
      simp only [afterWord?] at h
      split at h
      · have := ih h
        simp only [List.length_cons]
        omega
      · cases h

end NameAdvisor.Words
