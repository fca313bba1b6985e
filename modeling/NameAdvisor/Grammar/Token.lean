import NameAdvisor.Tree.Basic

/-!
# Tokens

What stands at the start of a text: first blanks and comments, then a word, a number, a quoted text or a mark.

## Main definitions

* `Gap.read`: the blanks and comments that a text starts with.
* `Token.read`: the token that a text starts with, and its length.
* `patternSize?`, `templateSize`, `elementTextSize`: the parts of a source that are not made of tokens.
-/

namespace NameAdvisor

/-- Whether `c` may stand between tokens. -/
def isSpacing (c : Char) : Bool :=
  let n := c.toNat
  (9 ≤ n && n ≤ 13) || n == 0x20 || n == 0xA0 || n == 0x1680 || (0x2000 ≤ n && n ≤ 0x200B) || n == 0x2028 ||
    n == 0x2029 || n == 0x202F || n == 0x205F || n == 0x2060 || n == 0x3000 || n == 0xFEFF

/-- The marks that cannot stand inside a word. -/
def wordBreaks : List Char :=
  [':', ';', '`', '"', '\'', '@', '#', '.', ',', '|', '^', '&', '<', '=', '>', '+', '-', '*', '/', '\\', '%', '?',
    '!', '~', '(', ')', '[', ']', '{', '}']

def isWordPart (c : Char) : Bool :=
  0x1F < c.toNat && !isSpacing c && !wordBreaks.contains c

/-- What stands between two tokens. -/
structure Gap where
  /-- The comments before the first line break outside comments. -/
  trailing : List Span
  /-- Whether there is such a line break. -/
  lineBreak : Bool
  /-- The comments after it. -/
  leading : List Span
  /-- Where the next token starts. -/
  stop : Nat
  /-- The text from there on. -/
  rest : List Char
  deriving Inhabited

namespace Gap

/-- A gap with one more comment, which starts it. -/
def addComment (lineBreak : Bool) (s : Span) (g : Gap) : Gap :=
  if lineBreak then { g with leading := s :: g.leading } else { g with trailing := s :: g.trailing }

/-- Where the characters of a gap belong: between comments, or to a comment of one line or of several. -/
inductive Place where
  | between
  | line (start : Nat)
  | block (start : Nat)

/-- The gap that ends at the character number `at_`, before the text `rest`. -/
def ofEnd (lineBreak : Bool) (at_ : Nat) (rest : List Char) : Gap :=
  ⟨[], lineBreak, [], at_, rest⟩

/-- Reads on in a gap from the character number `at_`; `lineBreak` tells whether a line break has been passed. -/
def readFrom (lineBreak : Bool) (at_ : Nat) : Place → List Char → Gap
  | .between, [] => ofEnd lineBreak at_ []
  | .line start, [] => (ofEnd lineBreak at_ []).addComment lineBreak ⟨start, at_⟩
  | .block start, [] => (ofEnd lineBreak at_ []).addComment lineBreak ⟨start, at_⟩
  | .between, '/' :: '/' :: s => readFrom lineBreak (at_ + 2) (.line at_) s
  | .between, '/' :: '*' :: s => readFrom lineBreak (at_ + 2) (.block at_) s
  | .between, c :: s =>
    if isSpacing c then readFrom (lineBreak || c == '\n') (at_ + 1) .between s else ofEnd lineBreak at_ (c :: s)
  | .line start, c :: s =>
    if c = '\n' then (readFrom true (at_ + 1) .between s).addComment lineBreak ⟨start, at_⟩
    else readFrom lineBreak (at_ + 1) (.line start) s
  | .block start, '*' :: '/' :: s =>
    (readFrom lineBreak (at_ + 2) .between s).addComment lineBreak ⟨start, at_ + 2⟩
  | .block start, _ :: s => readFrom lineBreak (at_ + 1) (.block start) s

/-- The blanks and comments that `s` starts with; `at_` is the number of its first character. -/
def read (at_ : Nat) (s : List Char) : Gap :=
  readFrom false at_ .between s

end Gap

/-- The length of the word that `s` starts with; a backslash before `u` stands for a character. -/
def wordSize : List Char → Nat
  | [] => 0
  | '\\' :: 'u' :: '{' :: s => 3 + bracedSize s
  | '\\' :: 'u' :: s => 2 + wordSize s
  | c :: s => if isWordPart c then 1 + wordSize s else 0
where
  /-- The length of the rest of a word within the braces of an escape. -/
  bracedSize : List Char → Nat
    | [] => 0
    | c :: s => if c = '}' then 1 + wordSize s else 1 + bracedSize s

/-- The length of the rest of a text that is quoted with `q`, through the closing quote. -/
def quotedSize (q : Char) : List Char → Nat
  | [] => 0
  | '\\' :: '\r' :: '\n' :: s => 3 + quotedSize q s
  | '\\' :: _ :: s => 2 + quotedSize q s
  | c :: s => if c = q then 1 else if c = '\n' then 0 else 1 + quotedSize q s

/-- The number of characters of `s` before the first that fails `p`. -/
def runSize (p : Char → Bool) : List Char → Nat
  | [] => 0
  | c :: s => if p c then 1 + runSize p s else 0

def exponentSize (s : List Char) : Nat :=
  match s with
  | e :: sign :: d :: t =>
    if e != 'e' && e != 'E' then 0
    else if sign.isDigit then 2 + runSize (fun c => c.isDigit || c == '_') (d :: t)
    else if (sign == '+' || sign == '-') && d.isDigit then 3 + runSize (fun c => c.isDigit || c == '_') t
    else 0
  | [e, d] => if (e == 'e' || e == 'E') && d.isDigit then 2 else 0
  | _ => 0

def numberSize (s : List Char) : Nat :=
  match s with
  | '0' :: x :: t =>
    if x.isAlpha && x != 'e' && x != 'E' then 2 + runSize (fun c => c.isAlphanum || c == '_') t else decimalSize s
  | _ => decimalSize s
where
  /-- The length of a number in decimal digits. -/
  decimalSize (s : List Char) : Nat :=
    let digits := fun c : Char => c.isDigit || c == '_'
    let whole := runSize digits s
    let point := match s.drop whole with
      | '.' :: t => 1 + runSize digits t
      | _ => 0
    let exponent := exponentSize (s.drop (whole + point))
    let suffix := match s.drop (whole + point + exponent) with
      | 'n' :: _ => 1
      | _ => 0
    whole + point + exponent + suffix

/-- The length of the rest of a pattern literal, through the closing slash and the flags; nothing if the line ends
first. -/
def patternSize? (inClass : Bool) : List Char → Option Nat
  | [] => none
  | '\\' :: _ :: s => (patternSize? inClass s).map (2 + ·)
  | c :: s =>
    if c = '\n' then none
    else if c = '/' && !inClass then some (1 + runSize isWordPart s)
    else (patternSize? (c == '[' || (inClass && c != ']')) s).map (1 + ·)

/-- The length of the text of a template before its end or the next hole. -/
def templateSize : List Char → Nat
  | [] => 0
  | '\\' :: _ :: s => 2 + templateSize s
  | '$' :: '{' :: _ => 0
  | c :: s => if c = '`' then 0 else 1 + templateSize s

/-- The length of the text of an element before the next element or hole. -/
def elementTextSize (s : List Char) : Nat :=
  runSize (fun c => c != '<' && c != '{') s

/-- The smallest units of a source. -/
inductive Token where
  /-- A name or keyword. -/
  | word (text : String)
  /-- A name with a `#`. -/
  | privateName
  | number
  /-- A text in quotes. -/
  | quoted
  /-- Anything else, by its characters. -/
  | mark (text : String)
  /-- The end of the source. -/
  | stop
  deriving DecidableEq, Repr, Inhabited

namespace Token

/-- The marks of more than one character, the longer first. -/
def longMarks : List String :=
  [">>>=", "...", "===", "!==", "**=", "<<=", ">>=", ">>>", "&&=", "||=", "??=", "=>", "==", "!=", "<=", ">=", "&&",
    "||", "??", "?.", "++", "--", "+=", "-=", "*=", "/=", "%=", "&=", "|=", "^=", "**", "<<", ">>"]

/-- The mark that `s` starts with.  A point before a digit is not part of a mark. -/
def markAt (s : List Char) : String :=
  match longMarks.find? fun m => m.toList.isPrefixOf s with
  | some m => if m = "?." && ((s.drop 2).head?.any (·.isDigit)) then "?" else m
  | none => String.ofList (s.take 1)

/-- The token that `s` starts with, and its length. -/
def read : List Char → Token × Nat
  | [] => (stop, 0)
  | c :: s =>
    if c.isDigit || (c = '.' && s.head?.any (·.isDigit)) then (number, numberSize (c :: s))
    else if isWordPart c || (c = '\\' && s.head? == some 'u') then
      let n := wordSize (c :: s)
      (word (String.ofList ((c :: s).take n)), n)
    else if c = '\'' || c = '"' then (quoted, 1 + quotedSize c s)
    else if c = '#' && s.head?.any isWordPart then (privateName, 1 + wordSize s)
    else
      let m := markAt (c :: s)
      (mark m, m.length)

end Token

end NameAdvisor
