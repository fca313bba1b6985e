import NameAdvisor.Tree.Basic

/-!
# Places in a tree

A cursor is a node together with the way back to the top of its tree.  Walking a tree goes from a node to its
first part, else to the next part of the construct around it, else up until there is one.

## Main definitions

* `Cursor`: a node of a tree and what stands around it.
* `Cursor.next?`: the node after it in the order of the source.
* `Cursor.walk`: all nodes of a tree in that order.
-/

namespace NameAdvisor

/-- What stands around a node in the construct above it. -/
structure Level where
  /-- The construct above. -/
  kind : NodeKind
  role : Option Role
  span : Span
  /-- The parts before the node, the nearest first. -/
  before : List Tree
  /-- The parts after the node. -/
  after : List Tree
  deriving Inhabited

/-- A node of a tree and the constructs around it, the innermost first. -/
structure Cursor where
  focus : Tree
  above : List Level
  deriving Inhabited

namespace Cursor

def top (t : Tree) : Cursor :=
  ⟨t, []⟩

/-- The construct above `focus` at a level. -/
def rebuild (focus : Tree) (l : Level) : Tree :=
  .node l.kind l.role l.span (l.before.reverse ++ focus :: l.after)

def firstChild? : Cursor → Option Cursor
  | ⟨.node k r s (c :: cs), above⟩ => some ⟨c, ⟨k, r, s, [], cs⟩ :: above⟩
  | ⟨.node _ _ _ [], _⟩ => none

/-- The next part of the construct around the node, or around the nearest construct that has a next one. -/
def following? (focus : Tree) : List Level → Option Cursor
  | [] => none
  | l :: above =>
    match l.after with
    | next :: after => some ⟨next, { l with before := focus :: l.before, after } :: above⟩
    | [] => following? (rebuild focus l) above

/-- The next node in the order of the source. -/
def next? (c : Cursor) : Option Cursor :=
  match c.firstChild? with
  | some d => some d
  | none => following? c.focus c.above

/-- The nodes from `c` on, at most `n` of them. -/
def walkFrom : Nat → Cursor → List Cursor
  | 0, _ => []
  | n + 1, c =>
    c ::
      match c.next? with
      | some d => walkFrom n d
      | none => []

/-- The nodes of a tree in the order of the source. -/
def walk (t : Tree) : List Cursor :=
  walkFrom t.size (top t)

end Cursor

mutual

/-- The nodes of `t` below `above`: first the construct, then its parts in order. -/
def Tree.places (above : List Level) : Tree → List Cursor
  | .node k r s cs => ⟨.node k r s cs, above⟩ :: Tree.placesAmong k r s above [] cs

/-- The nodes of the parts `cs` of a construct, of which the parts `before` have been passed. -/
def Tree.placesAmong (k : NodeKind) (r : Option Role) (s : Span) (above : List Level) (before : List Tree) :
    List Tree → List Cursor
  | [] => []
  | c :: cs =>
    Tree.places (⟨k, r, s, before, cs⟩ :: above) c ++ Tree.placesAmong k r s above (c :: before) cs

end

end NameAdvisor
