import NameAdvisor.Grammar.Token
import NameAdvisor.Source.Language

/-!
# Rules of a grammar

A reader stands before a token of a source.  A rule reads a construct from there and gives the nodes that it adds
to the construct around it: the comments in front of a construct come with it, and end up outside it.

## Main definitions

* `Reader`: a place in a source, with the next token.
* `Rule`: reading a construct, or refusing to.
* `Rule.all`, `Rule.orElse`, `Rule.many`, `Rule.node`: rules made from rules.
* `Rule.semicolon`: the end of a statement, whether a semicolon is written or not.
-/

namespace NameAdvisor

/-- A place in a source, between two tokens. -/
structure Reader where
  language : SourceLanguage
  /-- A bound on the number of times that a rule can be repeated: the length of the source. -/
  budget : Nat
  /-- Where the token before ended, or the semicolon that was left out after it. -/
  last : Nat
  /-- The text from there on. -/
  rest : List Char
  /-- The comments before the first line break that follows. -/
  trailing : List Span
  lineBreak : Bool
  /-- The comments after that. -/
  leading : List Span
  /-- Where the next token starts. -/
  start : Nat
  /-- The text from there on. -/
  text : List Char
  token : Token
  /-- The length of the next token. -/
  size : Nat
  deriving Inhabited

namespace Reader

/-- The place before the text `s`, whose first character has the number `at_`. -/
def moveTo (r : Reader) (at_ : Nat) (s : List Char) : Reader :=
  let gap := Gap.read at_ s
  let (token, size) := Token.read gap.rest
  { r with
    last := at_
    rest := s
    trailing := gap.trailing
    lineBreak := gap.lineBreak
    leading := gap.leading
    start := gap.stop
    text := gap.rest
    token := token
    size := size }

def advance (r : Reader) : Reader :=
  r.moveTo (r.start + r.size) (r.text.drop r.size)

/-- The comments before the next token, as nodes. -/
def comments (r : Reader) : List Tree :=
  (r.trailing ++ r.leading).map (Tree.leaf .comment)

def isMark (r : Reader) (m : String) : Bool :=
  r.token == .mark m

def isMarkOf (r : Reader) (ms : List String) : Bool :=
  match r.token with
  | .mark m => ms.contains m
  | _ => false

def isWord (r : Reader) (w : String) : Bool :=
  r.token == .word w

def isWordOf (r : Reader) (ws : List String) : Bool :=
  match r.token with
  | .word w => ws.contains w
  | _ => false

def isAnyWord (r : Reader) : Bool :=
  match r.token with
  | .word _ => true
  | _ => false

/-- Whether the next token starts with the character `c`. -/
def startsWith (r : Reader) (c : Char) : Bool :=
  r.text.head? == some c

/-- Whether the text at a line's start goes on with the statement of the line before. -/
def goesOn : List Char → Bool
  | '+' :: s => s.head? != some '+'
  | '-' :: s => s.head? != some '-'
  | '!' :: s => s.head? == some '='
  | 'i' :: 'n' :: s =>
    !(s.head?.any (·.isAlpha)) ||
      ("stanceof".toList.isPrefixOf s && !((s.drop 8).head?.any (·.isAlpha)))
  | c :: _ => ['`', ',', '.', ';', '*', '%', '>', '<', '=', '?', '^', '|', '&', '/', ':'].contains c
  | [] => false

/-- Whether a statement may end before the next token although no semicolon is written: at the end of the source,
before a closing brace, and before a line that does not go on with the statement. -/
def endsStatement (r : Reader) : Bool :=
  match r.token with
  | .stop => true
  | .mark m => m == "\x7d" || (r.lineBreak && !goesOn r.text)
  | _ => r.lineBreak && !goesOn r.text

end Reader

/-- Reading a construct: the nodes that it adds to the construct around it, and the place after it. -/
abbrev Rule : Type := Reader → Option (List Tree × Reader)

namespace Rule

/-- Reads nothing. -/
def done : Rule := fun r => some ([], r)

/-- Refuses every text. -/
def fail : Rule := fun _ => none

/-- Reads the next token as a node of a kind, with the comments before it. -/
def next (k : NodeKind) : Rule := fun r =>
  match r.token with
  | .stop => none
  | _ => some (r.comments ++ [.leaf k ⟨r.start, r.start + r.size⟩], r.advance)

/-- Reads with `p` if the place passes `test`, otherwise with `q`. -/
def given (test : Reader → Bool) (p q : Rule) : Rule := fun r =>
  if test r then p r else q r

/-- Reads with `p` if the place passes `test`. -/
def only (test : Reader → Bool) (p : Rule) : Rule :=
  given test p fail

def andThen (p q : Rule) : Rule := fun r =>
  match p r with
  | none => none
  | some (ts, r) =>
    match q r with
    | none => none
    | some (us, r) => some (ts ++ us, r)

def all : List Rule → Rule
  | [] => done
  | [p] => p
  | p :: ps => andThen p (all ps)

def orElse (p q : Rule) : Rule := fun r =>
  match p r with
  | some found => some found
  | none => q r

/-- Reads with `p`, or nothing where `p` refuses. -/
def optionally (p : Rule) : Rule :=
  orElse p done

/-- Reads with `p` until it refuses or stands still; the fuel bounds the number of times. -/
def repeatedly (p : Rule) : Nat → List (List Tree) → Rule
  | 0, found, r => some (found.reverse.flatten, r)
  | fuel + 1, found, r =>
    match p r with
    | none => some (found.reverse.flatten, r)
    | some (ts, r') =>
      if r'.last = r.last then some (found.reverse.flatten, r) else repeatedly p fuel (ts :: found) r'

def many (p : Rule) : Rule := fun r =>
  repeatedly p (r.budget + 1) [] r

/-- Reads a construct of kind `k` with `p`. -/
def node (k : NodeKind) (p : Rule) : Rule := fun r =>
  (p r).map fun (ts, r) => (Tree.wrap k ts, r)

/-- Reads a part in a role with `p`. -/
def part (role : Role) (p : Rule) : Rule := fun r =>
  (p r).map fun (ts, r) => (Tree.assign role ts, r)

def token (test : Reader → Bool) : Rule :=
  only test (next .token)

def mark (m : String) : Rule :=
  token (·.isMark m)

def markOf (ms : List String) : Rule :=
  token (·.isMarkOf ms)

def word (w : String) : Rule :=
  token (·.isWord w)

def wordOf (ws : List String) : Rule :=
  token (·.isWordOf ws)

/-- Reads any word as a name. -/
def name : Rule :=
  only (·.isAnyWord) (next .identifier)

def quoted : Rule :=
  token (·.token == .quoted)

def comma : Rule :=
  only (·.isMark ",") (next .comma)

/-- Reads the first `n` characters of the next token as a token of their own. -/
def firstOf (n : Nat) : Rule := fun r =>
  next .token { r with size := n, token := .mark (String.ofList (r.text.take n)) }

/-- Reads the single mark `c`, also where it is the first of a longer one. -/
def single (c : Char) : Rule :=
  only (·.startsWith c) (firstOf 1)

/-- Reads the characters that directly follow the token before, as many as `size` says, if there are any. -/
def raw (size : List Char → Nat) : Rule := fun r =>
  match size r.rest with
  | 0 => none
  | n + 1 => some ([.leaf .token ⟨r.last, r.last + (n + 1)⟩], r.moveTo (r.last + (n + 1)) (r.rest.drop (n + 1)))

/-- Reads some `item`s with commas between them; a comma may follow the last. -/
def separated (item : Rule) : Rule :=
  optionally (all [item, many (all [comma, item]), optionally comma])

/-- Reads a semicolon that is left out: it has no length, and the comments of its line stand before it. -/
def omittedSemicolon : Rule := fun r =>
  let stop := (r.trailing.getLast?.map (·.stop)).getD r.last
  some (r.trailing.map (Tree.leaf .comment) ++ [.leaf .token ⟨stop, stop⟩],
    { r with last := stop, rest := r.rest.drop (stop - r.last), trailing := [] })

/-- Reads the place where a semicolon may be left out. -/
def optionalSemicolon : Rule :=
  given (·.endsStatement) omittedSemicolon done

/-- Reads the end of a statement. -/
def semicolon : Rule :=
  orElse (mark ";") optionalSemicolon

end Rule

/-- The constructs that contain each other. -/
inductive Goal where
  | statement
  /-- Statements between braces. -/
  | block
  /-- Expressions with commas between them; `inAllowed` tells whether `in` is an operator. -/
  | expression (inAllowed : Bool)
  /-- One expression; `inBranch` tells whether a colon has to follow, as in the middle of a choice. -/
  | assignment (inAllowed inBranch : Bool)
  /-- An expression without binary operators. -/
  | operand (inAllowed inBranch : Bool)
  | type
  | element
  deriving DecidableEq, Repr

end NameAdvisor
