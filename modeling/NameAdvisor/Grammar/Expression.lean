import NameAdvisor.Grammar.TypeForm

/-!
# Expressions

The grammar of expressions, functions, object literals, classes and elements.  Binary operators are read without
their precedence, which no use of the trees depends on.

## Main definitions

* `Grammar.operand`: an expression without binary operators.
* `Grammar.assignment`, `Grammar.expression`: expressions with them.
* `Grammar.parenthesised`: what parentheses start, an arrow function or not.
* `Grammar.classForm`, `Grammar.objectLiteral`, `Grammar.element`.
-/

namespace NameAdvisor.Grammar

open Rule

def reservedWords : List String :=
  ["in", "instanceof", "case", "default", "else", "catch", "finally", "extends", "const", "var", "if", "for", "while",
    "do", "switch", "try", "return", "throw", "break", "continue", "with", "export", "enum", "debugger"]

/-- The operators between two operands, without words. -/
def binaryMarks : List String :=
  ["+", "-", "*", "/", "%", "**", "==", "===", "!=", "!==", "<", ">", "<=", ">=", "&&", "||", "??", "&", "|", "^",
    "<<", ">>", ">>>"]

/-- The operators that give a new value to what stands before them. -/
def assignmentMarks : List String :=
  ["=", "+=", "-=", "*=", "/=", "%=", "**=", "<<=", ">>=", ">>>=", "&=", "|=", "^=", "&&=", "||=", "??="]

def startsExpression (r : Reader) : Bool :=
  match r.token with
  | .word w => !reservedWords.contains w && w != "of" && w != "as" && w != "satisfies"
  | .mark m => ["(", "[", "\x7b", "`", "/", "/=", "!", "~", "+", "-", "++", "--", "<", "@"].contains m
  | .number | .quoted | .privateName => true
  | .stop => false

/-- Whether what was read ends with an arrow function. -/
def endsInArrow (ts : List Tree) : Bool :=
  ts.getLast?.any (·.kind == .arrowFunction)

variable (self : Goal → Rule)

/-- An expression within a list. -/
def item : Rule :=
  self (.assignment true false)

/-- An expression within a list, or several after an ellipsis. -/
def spreadItem : Rule :=
  all [optionally (mark "..."), item self]

/-- An expression between parentheses. -/
def condition : Rule :=
  all [mark "(", self (.expression true), mark ")"]

def arguments : Rule :=
  node .construct (all [mark "(", separated (spreadItem self), mark ")"])

/-- A decorator: a name or an expression after `@`, perhaps called. -/
def decorator : Rule :=
  let named := all [name, many (all [mark ".", name]), optionally (typeArguments self),
    optionally (only (·.isMark "(") (arguments self))]
  node .decorator (all [mark "@", orElse named (condition self)])

def parameterModifier : Rule :=
  token fun r =>
    r.isWordOf ["public", "private", "protected", "readonly", "override"] &&
      (let after := r.advance
       after.isAnyWord || after.startsWith '{' || after.isMark "...")

/-- A parameter, or an expression between parentheses. -/
def parameter : Rule :=
  all [many (decorator self), many parameterModifier, spreadItem self, optionally (mark "?"),
    optionally (colonType self), optionally (all [mark "=", item self])]

/-- Parameters, or expressions between parentheses. -/
def parameters : Rule :=
  all [mark "(", separated (parameter self), mark ")"]

/-- The parameters and the type of the result of a function. -/
def signature : Rule :=
  all [optionally (typeParameters self), node .construct (parameters self), optionally (colonType self)]

/-- The arrow of a function and its body. -/
def arrowBody (inAllowed inBranch : Bool) : Rule :=
  all [mark "=>", given (·.startsWith '{') (self .block) (self (.assignment inAllowed inBranch))]

/-- What parentheses start: an arrow function if an arrow follows, perhaps after a type. -/
def parenthesised (inAllowed inBranch : Bool) : Rule := fun r =>
  match parameters self r with
  | none => none
  | some (ts, r) =>
    if r.isMark "=>" then
      node .arrowFunction (andThen (fun r => some (ts, r)) (arrowBody self inAllowed inBranch)) r
    else
      let group := some (Tree.wrap .construct ts, r)
      if r.isMark ":" then
        match all [colonType self, arrowBody self inAllowed inBranch] r with
        | none => group
        | some (us, r') =>
          if !inBranch || r'.isMark ":" then some (Tree.wrap .arrowFunction (ts ++ us), r') else group
      else group

def propertyKey : Rule := fun r =>
  match r.token with
  | .word _ => next .propertyName r
  | .number | .quoted | .privateName => next .token r
  | .mark "[" =>
    let key := only (fun r => r.isAnyWord && r.advance.isMark ":") (all [name, colonType self])
    node .construct (all [mark "[", orElse key (self (.expression true)), mark "]"]) r
  | _ => none

def startsKey (r : Reader) : Bool :=
  match r.token with
  | .word _ | .number | .quoted | .privateName => true
  | .mark m => m == "[" || m == "*"
  | .stop => false

/-- One of the words `ws` before the name of a member. -/
def memberModifier (ws : List String) : Rule :=
  token fun r => r.isWordOf ws && (let after := r.advance; startsKey after && !after.lineBreak)

/-- Whether the parameters of a method start here. -/
def startsSignature (r : Reader) : Bool :=
  r.isMark "(" || r.startsWith '<'

def objectMember : Rule := fun r =>
  if r.isMark "..." then spreadItem self r
  else
    let head := all [many (memberModifier ["async", "get", "set"]), optionally (mark "*"),
      part .name (propertyKey self)]
    match head r with
    | none => none
    | some (ts, r) =>
      let before : Rule := fun r => some (ts, r)
      if startsSignature r then node .methodDefinition (all [before, signature self, self .block]) r
      else if r.isMarkOf [":", "="] then node .construct (all [before, next .token, item self]) r
      else node .construct before r

/-- An object literal or pattern. -/
def objectLiteral : Rule :=
  node .object (all [single '{', many (orElse comma (objectMember self)), single '}'])

/-- An array or pattern. -/
def arrayLiteral : Rule :=
  node .construct (all [mark "[", many (orElse comma (spreadItem self)), mark "]"])

def classModifiers : List String :=
  ["public", "private", "protected", "static", "abstract", "override", "readonly", "declare", "async", "get", "set",
    "accessor"]

/-- A member of a class: a method with a body, a signature without one, or a field. -/
def classMember : Rule := fun r =>
  if r.isWord "static" && r.advance.startsWith '{' then node .construct (all [word "static", self .block]) r
  else
    let head := all [many (memberModifier classModifiers), optionally (mark "*"), part .name (propertyKey self),
      optionally (markOf ["?", "!"])]
    match head r with
    | none => none
    | some (ts, r) =>
      let before : Rule := fun r => some (ts, r)
      if startsSignature r then
        match all [before, signature self] r with
        | none => none
        | some (us, r) =>
          let before : Rule := fun r => some (us, r)
          if r.startsWith '{' then node .methodDefinition (all [before, self .block]) r
          else node .construct before r
      else
        node .fieldDefinition
          (all [before, optionally (colonType self), optionally (all [mark "=", part .value (item self)])]) r

/-- The members of a class.  A token that belongs to none is passed over. -/
def classBody : Rule :=
  let skipped := only (fun r => !r.startsWith '}') (next .token)
  let member := orElse (markOf [";", ","]) (orElse (decorator self) (orElse (classMember self) skipped))
  node .classBody (all [single '{', many member, single '}'])

/-- What a class extends and implements. -/
def heritage : Rule := fun r =>
  if r.isWord "extends" then
    all [word "extends", self (.operand true false), optionally (typeArguments self)] r
  else if r.isWord "implements" then all [word "implements", separated (self .type)] r
  else none

def classForm : Rule :=
  let className := only (fun r => r.isAnyWord && !r.isWordOf ["extends", "implements"]) (part .name name)
  all [word "class", optionally className, optionally (typeParameters self), many (heritage self), classBody self]

def functionExpression : Rule :=
  node .construct (all [optionally (word "async"), word "function", optionally (mark "*"), optionally name,
    signature self, self .block])

def patternLiteral : Rule := fun r =>
  match patternSize? false (r.text.drop 1) with
  | none => none
  | some n => firstOf (n + 1) r

/-- A name that may hold hyphens, colons and points. -/
def elementName : Rule := fun r =>
  if r.isAnyWord then firstOf (runSize (fun c => isWordPart c || ['-', ':', '.'].contains c) r.text) r else none

/-- A quoted text within an element: no character is special in it. -/
def elementText : Rule := fun r =>
  match r.token, r.text with
  | .quoted, q :: s => firstOf (runSize (· != q) s + 2) r
  | _, _ => none

/-- An expression between braces, or nothing between them. -/
def elementHole : Rule :=
  node .construct (all [single '{', optionally (mark "..."), optionally (self (.expression true)), single '}'])

def elementAttribute : Rule :=
  let value := orElse elementText (orElse (elementHole self) (self .element))
  orElse (elementHole self) (all [elementName, optionally (all [mark "=", value])])

/-- An element or a fragment, with its content. -/
def element : Rule :=
  let opening := all [single '<', optionally elementName, optionally (only (·.startsWith '<') (typeArguments self)),
    many (elementAttribute self)]
  let hole := only (fun r => r.rest.head? == some '{') (elementHole self)
  let inner := only (fun r => r.rest.head? == some '<' && !r.advance.startsWith '/') (self .element)
  let closing := all [single '<', single '/', optionally elementName, single '>']
  let content := all [single '>', many (orElse (raw elementTextSize) (orElse hole inner)), closing]
  node .construct (all [opening, orElse (all [single '/', single '>']) content])

/-- Type arguments of a call: a call, a template or no operand has to follow. -/
def callTypeArguments : Rule := fun r =>
  match only (·.startsWith '<') (typeArguments self) r with
  | none => none
  | some (ts, r) =>
    if r.isMark "(" || r.isMark "`" || !(startsExpression r) then some (ts, r) else none

/-- What may follow an operand. -/
def suffix : Rule := fun r =>
  match r.token with
  | .mark "." => all [next .token, token fun r => r.isAnyWord || r.token == .privateName] r
  | .mark "?." => all [next .token, optionally (token fun r => r.isAnyWord || r.token == .privateName)] r
  | .mark "[" => all [next .token, self (.expression true), mark "]"] r
  | .mark "(" => arguments self r
  | .mark "`" => template (self (.expression true)) r
  | .mark "!" | .mark "++" | .mark "--" => if r.lineBreak then none else next .token r
  | .mark _ => callTypeArguments self r
  | _ => none

/-- An operand with what follows it; nothing follows an arrow function. -/
def suffixed (p : Rule) : Rule := fun r =>
  match p r with
  | none => none
  | some (ts, r) => if endsInArrow ts then some (ts, r) else andThen (fun r => some (ts, r)) (many (suffix self)) r

/-- A word at the start of an operand: the parameter of an arrow function, a call of `async` or its arrow function,
or a name. -/
def wordOperand (inAllowed inBranch : Bool) : Rule := fun r =>
  let after := r.advance
  let arrow := all [name, arrowBody self inAllowed inBranch]
  if after.isMark "=>" then node .arrowFunction arrow r
  else if r.isWord "async" && !after.lineBreak then
    if after.isAnyWord && after.advance.isMark "=>" then
      node .arrowFunction (all [word "async", arrow]) r
    else if after.isMark "(" then
      match all [name, parenthesised self inAllowed inBranch] r with
      | none => none
      | some (ts, r) =>
        some (Tree.wrap (if endsInArrow ts then .arrowFunction else .construct) ts, r)
    else
      match all [name, typeParameters self, parenthesised self inAllowed inBranch] r with
      | some (ts, r') => if endsInArrow ts then some (Tree.wrap .arrowFunction ts, r') else name r
      | none => name r
  else name r

/-- What an opening angle bracket starts: a generic arrow function, a type assertion or an element. -/
def angleOperand (inAllowed inBranch : Bool) : Rule := fun r =>
  let assertion := all [single '<', self .type, single '>', self (.operand inAllowed inBranch)]
  let elements := r.language = .tsx
  let generic :=
    !elements ||
      (let second := r.advance
       let third := second.advance
       second.isAnyWord && (third.isMark "," || third.isWord "extends" || second.isWord "const"))
  let other := if elements then self .element else node .construct assertion
  if generic then
    match all [typeParameters self, only (·.isMark "(") (parenthesised self inAllowed inBranch)] r with
    | some (ts, r') =>
      if endsInArrow ts then some (Tree.wrap .arrowFunction ts, r')
      else if elements then other r
      else node .construct (andThen (fun r => some (ts, r)) (many (suffix self))) r'
    | none => other r
  else other r

/-- An operand without operators in front of it and without what follows it. -/
def primary (inAllowed inBranch : Bool) : Rule := fun r =>
  match r.token with
  | .number | .quoted | .privateName => next .token r
  | .mark "(" => parenthesised self inAllowed inBranch r
  | .mark "[" => arrayLiteral self r
  | .mark "\x7b" => objectLiteral self r
  | .mark "`" => template (self (.expression true)) r
  | .mark "/" | .mark "/=" => patternLiteral r
  | .mark "@" => node .construct (all [many (decorator self), classForm self]) r
  | .word "function" => functionExpression self r
  | .word "class" => node .construct (classForm self) r
  | .word w =>
    if reservedWords.contains w then none
    else if w == "async" && r.advance.isWord "function" && !r.advance.lineBreak then functionExpression self r
    else wordOperand self inAllowed inBranch r
  | _ => none

/-- Whether the next token is an operator in front of an operand. -/
def isPrefixOperator (r : Reader) : Bool :=
  r.isMarkOf ["!", "~", "+", "-", "++", "--"] ||
    (r.isWordOf ["typeof", "void", "delete", "await", "new"] && startsExpression r.advance)

/-- An expression without binary operators. -/
def operand (inAllowed inBranch : Bool) : Rule := fun r =>
  if isPrefixOperator r then node .construct (all [next .token, self (.operand inAllowed inBranch)]) r
  else if r.startsWith '<' then suffixed self (angleOperand self inAllowed inBranch) r
  else suffixed self (primary self inAllowed inBranch) r

/-- An operator and what follows it in an expression. -/
def operation (inAllowed inBranch : Bool) : Rule := fun r =>
  match r.token with
  | .word "in" =>
    if inAllowed then all [next .token, self (.operand inAllowed inBranch)] r else none
  | .word "instanceof" => all [next .token, self (.operand inAllowed inBranch)] r
  | .word "as" | .word "satisfies" => if r.lineBreak then none else all [next .token, self .type] r
  | .mark "?" =>
    if r.advance.isMarkOf [":", ",", ")", "=", "]", "\x7d"] then none
    else all [mark "?", self (.assignment true true), mark ":", self (.assignment inAllowed inBranch)] r
  | .mark m =>
    if binaryMarks.contains m then all [next .token, self (.operand inAllowed inBranch)] r
    else if assignmentMarks.contains m then all [next .token, self (.assignment inAllowed inBranch)] r
    else none
  | _ => none

/-- What `yield` gives away. -/
def yielded (inAllowed inBranch : Bool) : Rule :=
  node .construct (all [word "yield", optionally (mark "*"),
    given (fun r => startsExpression r && !r.lineBreak) (self (.assignment inAllowed inBranch)) done])

/-- One expression. -/
def assignment (inAllowed inBranch : Bool) : Rule := fun r =>
  let first := if r.isWord "yield" then yielded self inAllowed inBranch else self (.operand inAllowed inBranch)
  match first r with
  | none => none
  | some (ts, r) =>
    if endsInArrow ts then some (ts, r)
    else
      match many (operation self inAllowed inBranch) r with
      | none => none
      | some ([], r) => some (ts, r)
      | some (us, r) => some (Tree.wrap .construct (ts ++ us), r)

/-- Expressions with commas between them. -/
def expression (inAllowed : Bool) : Rule :=
  let one := self (.assignment inAllowed false)
  all [one, many (all [comma, one])]

end NameAdvisor.Grammar
