import NameAdvisor.Text.Blank

/-!
# The imports of a file

An import is recognised by its words: `import`, a clause within one line, `from` and a quoted module.

## Main definitions

* `Imports.quoted?`: a text between quotes.
* `Imports.moduleAfter?`: the module of the import whose first word has been read.
* `Imports.ofSource`: the modules of all imports of a text.
-/

namespace NameAdvisor.Imports

open Text

/-- The rest of `s` after `word`, if `s` starts with it. -/
def after? (word s : List Char) : Option (List Char) :=
  if word.isPrefixOf s then some (s.drop word.length) else none

def isQuote (c : Char) : Bool :=
  c == '\'' || c == '"'

/-- The characters of `s` before the next quote of its line, and what follows that quote. -/
def untilQuote? : List Char → Option (List Char × List Char)
  | [] => none
  | c :: s =>
    if isQuote c then some ([], s)
    else if c = '\n' then none
    else (untilQuote? s).map fun (text, rest) => (c :: text, rest)

/-- The text of at least one character between quotes that `s` starts with, and what follows it.  The quotes need
not be alike. -/
def quoted? : List Char → Option (List Char × List Char)
  | q :: c :: s =>
    if isQuote q && c != '\n' then (untilQuote? s).map fun (text, rest) => (c :: text, rest) else none
  | _ => none

/-- The module after `from`, which has to stand between blanks, and what follows it. -/
def fromClause? (s : List Char) : Option (List Char × List Char) :=
  if (s.takeWhile isBlank).isEmpty then none
  else
    match after? "from".toList (s.dropWhile isBlank) with
    | none => none
    | some s => if (s.takeWhile isBlank).isEmpty then none else quoted? (s.dropWhile isBlank)

/-- The module of the first `from` in the line. -/
def inLine? : List Char → Option (List Char × List Char)
  | [] => fromClause? []
  | c :: s =>
    match fromClause? (c :: s) with
    | some found => some found
    | none => if c = '\n' then none else inLine? s

/-- The module of an import after its first word: as many as possible of the blanks that follow belong to the
word, the rest to the clause. -/
def moduleAfter? : List Char → Option (List Char × List Char)
  | [] => none
  | c :: s =>
    if isBlank c then
      match moduleAfter? s with
      | some found => some found
      | none => inLine? s
    else none

/-- The modules of the imports of `s`; the fuel bounds the number of steps. -/
def modulesFrom : Nat → List Char → List (List Char)
  | 0, _ => []
  | _, [] => []
  | fuel + 1, c :: s =>
    match (after? "import".toList (c :: s)).bind moduleAfter? with
    | some (text, rest) => text :: modulesFrom fuel rest
    | none => modulesFrom fuel s

/-- The modules that a text imports by name, in order. -/
def ofSource (source : List Char) : List String :=
  (modulesFrom source.length source).map String.ofList

end NameAdvisor.Imports
