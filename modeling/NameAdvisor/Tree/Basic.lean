/-!
# Syntax trees of source files

A tree keeps every token and comment of a source as a leaf.  It does not hold their text but where they stand.

## Main definitions

* `NodeKind`: the constructs that are told apart.
* `Tree`: a construct, where it stands and what it is made of.
* `Tree.wrap`: a construct made of some parts; comments in front of them stay outside.
-/

namespace NameAdvisor

/-- The constructs and tokens that are told apart. -/
inductive NodeKind where
  | functionDeclaration
  | generatorDeclaration
  /-- A name or pattern in a declaration of variables, with its value. -/
  | variableDeclarator
  | arrowFunction
  /-- A method with a body, of a class or an object literal. -/
  | methodDefinition
  /-- A field of a class. -/
  | fieldDefinition
  | classBody
  /-- An object literal. -/
  | object
  | exportStatement
  | decorator
  | identifier
  /-- A plain name of a property. -/
  | propertyName
  | comment
  | comma
  /-- Any other token. -/
  | token
  /-- Any other construct. -/
  | construct
  deriving DecidableEq, Repr, Inhabited

/-- What a part is to the construct around it. -/
inductive Role where
  | name
  | value
  deriving DecidableEq, Repr

/-- A stretch of the source, by the numbers of its first character and of the one after its last. -/
structure Span where
  start : Nat
  stop : Nat
  deriving DecidableEq, Repr, Inhabited

/-- A construct or token: its kind, its role, where it stands and its parts in order. -/
inductive Tree where
  | node (kind : NodeKind) (role : Option Role) (span : Span) (children : List Tree)
  deriving Inhabited

namespace Tree

def kind : Tree → NodeKind
  | node k _ _ _ => k

/-- What the construct is to the one around it. -/
def role : Tree → Option Role
  | node _ r _ _ => r

def span : Tree → Span
  | node _ _ s _ => s

def children : Tree → List Tree
  | node _ _ _ cs => cs

/-- A token or comment. -/
def leaf (k : NodeKind) (s : Span) : Tree :=
  node k none s []

def part? (r : Role) (t : Tree) : Option Tree :=
  t.children.find? (·.role == some r)

/-- The same construct in a role. -/
def withRole (r : Role) : Tree → Tree
  | node k _ s cs => node k (some r) s cs

/-- The stretch from the first to the last of some parts. -/
def spanOf (first : Tree) (rest : List Tree) : Span :=
  ⟨first.span.start, ((first :: rest).getLast?.getD first).span.stop⟩

/-- A construct of kind `k` made of `parts`.  Comments in front of the first other part stay outside. -/
def wrap (k : NodeKind) : List Tree → List Tree
  | [] => []
  | first :: rest =>
    if first.kind = .comment then first :: wrap k rest
    else [node k none (spanOf first rest) (first :: rest)]

/-- `parts` with a role for those that are not comments. -/
def assign (r : Role) (parts : List Tree) : List Tree :=
  parts.map fun t => if t.kind = .comment then t else t.withRole r

mutual

def size : Tree → Nat
  | node _ _ _ cs => sizeAll cs + 1

def sizeAll : List Tree → Nat
  | [] => 0
  | t :: ts => size t + sizeAll ts

end

end Tree

end NameAdvisor
