import NameAdvisor.Text.Blank

/-!
# The header comment of a file

## Main definitions

* `HeaderComment.at?`: the comment at the start of a line, if nothing follows it on its last line.
* `HeaderComment.ofSource`: the first such comment of a text.
-/

namespace NameAdvisor.HeaderComment

open Text

/-- Whether only blanks stand before the end of the line. -/
def endsLine (s : List Char) : Bool :=
  match s.dropWhile fun c => isBlank c && c != '\n' with
  | [] => true
  | c :: _ => c == '\n'

/-- `s` up to the first `*/` that ends its line. -/
def throughClose? : List Char → Option (List Char)
  | [] => none
  | '*' :: rest@('/' :: after) =>
    if endsLine after then some ['*', '/'] else (throughClose? rest).map ('*' :: ·)
  | c :: rest => (throughClose? rest).map (c :: ·)

/-- The comment that `s` starts with: the rest of the line after `//`, or the text from `/*` to a `*/` that ends
its line. -/
def at? : List Char → Option (List Char)
  | '/' :: '/' :: rest => some ('/' :: '/' :: rest.takeWhile (· ≠ '\n'))
  | '/' :: '*' :: rest => (throughClose? rest).map ('/' :: '*' :: ·)
  | _ => none

/-- The first comment of `s` that starts a line; `fresh` says whether `s` itself starts one. -/
def firstFrom (fresh : Bool) : List Char → Option (List Char)
  | [] => none
  | c :: s =>
    match if fresh then at? (c :: s) else none with
    | some comment => some comment
    | none => firstFrom (c == '\n') s

/-- The first comment that stands on lines of its own, or nothing. -/
def ofSource (source : List Char) : String :=
  String.ofList (trimChars ((firstFrom true source).getD []))

end NameAdvisor.HeaderComment
