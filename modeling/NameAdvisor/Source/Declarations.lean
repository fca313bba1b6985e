import NameAdvisor.Grammar.Program
import NameAdvisor.Identifier
import NameAdvisor.Tree.Cursor
import NameAdvisor.Text.Blank

/-!
# Declarations in a source

Which nodes of a tree declare a name, and the comments that stand directly before a declaration.

## Main definitions

* `Declaration.leadingComments`: the comments before a place.
* `Declaration.classify?`: the identifier that a node declares.
* `Declaration.inTree`: the identifiers of a tree, in the order of the source.
-/

namespace NameAdvisor.Declaration

def textOf (source : List Char) (s : Span) : List Char :=
  (source.drop s.start).take (s.stop - s.start)

/-- The largest number of a line. -/
def lastLine : Nat := Nat.pow 2 32 - 1

/-- The line of a place, counted from one; the lines that have no number of their own get the largest. -/
def lineOf (source : List Char) (start : Nat) : Nat :=
  min ((source.take start).count '\n' + 1) lastLine

/-- A block comment without its marks; a text that lacks one of them stays as it is. -/
def unblocked (raw : List Char) : List Char :=
  match raw with
  | '/' :: '*' :: rest =>
    if ['/', '*'].isPrefixOf rest.reverse then rest.take (rest.length - 2) else raw
  | _ => raw

/-- The text of a comment without its marks and the blanks at its ends. -/
def commentBody (raw : List Char) : String :=
  String.ofList (Text.trimChars (match raw with
    | '/' :: '/' :: line => line
    | _ => unblocked raw))

/-- The comments among the nodes before a place, given the nearest first, up to the first node that is neither a
comment nor a comma nor a decorator. -/
def commentsBefore : List Tree → List Tree
  | [] => []
  | t :: before =>
    match t.kind with
    | .comment => t :: commentsBefore before
    | .comma | .decorator => commentsBefore before
    | _ => []

/-- The texts of the comments directly before a place, the first one first. -/
def leadingComments (source : List Char) (above : List Level) : String :=
  match above with
  | [] => ""
  | l :: _ =>
    "\n".intercalate (((commentsBefore l.before).reverse.map fun t => commentBody (textOf source t.span)))

/-- What stands around the export that a node is the declaration of, or around the node itself. -/
def aboveExport : List Level → List Level
  | [] => []
  | l :: above => if l.kind = .exportStatement then above else l :: above

/-- The kind of the names that a node declares, and what stands around the place above which its comments stand. -/
def category? (c : Cursor) : Option (IdentifierKind × List Level) :=
  match c.focus.kind with
  | .functionDeclaration | .generatorDeclaration => some (.function, aboveExport c.above)
  | .variableDeclarator =>
    let isArrow := (c.focus.part? .value).any (·.kind == .arrowFunction)
    some (if isArrow then .arrowFunction else .variableBinding, aboveExport c.above.tail)
  | .methodDefinition =>
    match c.above with
    | l :: _ =>
      match l.kind with
      | .classBody => some (.method, c.above)
      | .object => some (.objectMethod, c.above)
      | _ => none
    | [] => none
  | .fieldDefinition => some (.property, c.above)
  | _ => none

/-- The plain name of a declaration. -/
def plainName? (t : Tree) : Option Span :=
  match t.part? .name with
  | none => none
  | some n => if n.kind = .identifier ∨ n.kind = .propertyName then some n.span else none

/-- The identifier that a node declares, if it declares one by a plain name. -/
def classify? (source : List Char) (c : Cursor) : Option Identifier :=
  match category? c, plainName? c.focus with
  | some (kind, above), some s =>
    some
      { name := String.ofList (textOf source s)
        kind
        sourceContext := leadingComments source above
        line := some (lineOf source c.focus.span.start) }
  | _, _ => none

/-- The identifiers that a tree declares, in the order of the source. -/
def inTree (source : List Char) (t : Tree) : List Identifier :=
  (Cursor.walk t).filterMap (classify? source)

end NameAdvisor.Declaration
