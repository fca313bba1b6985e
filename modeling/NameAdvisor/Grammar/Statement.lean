import NameAdvisor.Grammar.Expression

/-!
# Statements

The grammar of statements and declarations.

## Main definitions

* `Grammar.statement`: a statement or declaration.
* `Grammar.statements`: as many as there are, passing over tokens that start none.
* `Grammar.block`: statements between braces.
-/

namespace NameAdvisor.Grammar

open Rule

def variableWords : List String :=
  ["var", "let", "const"]

/-- The words that a declaration can start with after `declare`. -/
def ambientWords : List String :=
  ["var", "let", "const", "function", "async", "class", "abstract", "enum", "interface", "type", "namespace", "module",
    "global"]

variable (self : Goal → Rule)

/-- Statements up to a closing brace or the end.  A token that starts no statement is passed over. -/
def statements : Rule :=
  many (only (fun r => !r.startsWith '}') (orElse (self .statement) (next .token)))

/-- Statements between braces. -/
def block : Rule :=
  node .construct (all [single '{', statements self, single '}', optionalSemicolon])

def expressionStatement : Rule :=
  node .construct (all [self (.expression true), semicolon])

/-- A name or a pattern that gets a value. -/
def binding : Rule := fun r =>
  match r.token with
  | .word _ => name r
  | .mark "\x7b" => objectLiteral self r
  | .mark "[" => arrayLiteral self r
  | _ => none

def declarator (inAllowed : Bool) : Rule :=
  node .variableDeclarator (all [part .name (binding self), optionally (mark "!"), optionally (colonType self),
    optionally (all [mark "=", part .value (self (.assignment inAllowed false))])])

def variableDeclaration (inAllowed : Bool) : Rule :=
  node .construct (all [wordOf variableWords, declarator self inAllowed, many (all [comma, declarator self inAllowed]),
    semicolon])

/-- A declaration of a function: one without a body is a signature. -/
def functionDeclaration : Rule := fun r =>
  match all [optionally (word "async"), word "function"] r with
  | none => none
  | some (ts, r) =>
    let kind : NodeKind := if r.isMark "*" then .generatorDeclaration else .functionDeclaration
    match all [optionally (mark "*"), part .name name, signature self] r with
    | none => none
    | some (us, r) =>
      let before : Rule := fun r => some (ts ++ us, r)
      if r.startsWith '{' then node kind (all [before, self .block]) r
      else node .construct (all [before, semicolon]) r

def classDeclaration : Rule := fun r =>
  match many (decorator self) r with
  | none => none
  | some (ts, r) =>
    let before : Rule := fun r => some (ts, r)
    if r.isWord "abstract" then node .construct (all [before, next .token, classForm self]) r
    else node .construct (all [before, classForm self, optionalSemicolon]) r

def enumMember : Rule :=
  all [propertyKey self, optionally (all [mark "=", item self])]

def enumDeclaration : Rule :=
  node .construct (all [optionally (word "const"), word "enum", name, single '{', many (orElse comma (enumMember self)),
    single '}'])

def interfaceDeclaration : Rule :=
  node .construct (all [word "interface", name, optionally (typeParameters self),
    optionally (all [word "extends", separated (self .type)]), objectType self])

def typeAlias : Rule :=
  node .construct (all [word "type", name, optionally (typeParameters self), mark "=", self .type, semicolon])

def namespaceDeclaration : Rule :=
  let title := orElse quoted (all [name, many (all [mark ".", name])])
  node .construct (all [wordOf ["namespace", "module"], title, given (·.startsWith '{') (self .block) semicolon])

/-- A declaration of what is defined elsewhere. -/
def ambientDeclaration : Rule :=
  node .construct (all [word "declare",
    given (fun r => r.isWord "global" && r.advance.startsWith '{') (all [word "global", self .block])
      (self .statement)])

/-- What an import says of the module. -/
def importAttributes : Rule :=
  optionally (only (fun r => !r.lineBreak && r.advance.startsWith '{')
    (all [wordOf ["with", "assert"], objectLiteral self]))

def nameList : Rule :=
  node .construct (all [single '{', many (orElse comma (orElse name quoted)), single '}'])

def importDeclaration : Rule :=
  let clause := orElse (orElse name comma) (orElse (mark "*") nameList)
  let source := orElse (all [quoted, importAttributes self]) (all [mark "=", item self])
  node .construct (all [word "import", many clause, source, semicolon])

/-- What an export takes from another module. -/
def exportSource : Rule :=
  optionally (all [word "from", quoted, importAttributes self])

/-- What is exported as the default: a declaration or an expression. -/
def defaultExport : Rule := fun r =>
  if r.isWord "function" || (r.isWord "async" && r.advance.isWord "function") then
    orElse (functionDeclaration self) (all [self (.expression true), semicolon]) r
  else if r.isWord "class" || r.isMark "@" || (r.isWord "abstract" && r.advance.isWord "class") then
    classDeclaration self r
  else if r.isWord "interface" && r.advance.isAnyWord then interfaceDeclaration self r
  else all [self (.expression true), semicolon] r

/-- What stands after the word `export`. -/
def exported : Rule := fun r =>
  if r.isWord "default" then all [next .token, defaultExport self] r
  else if r.isMark "=" then all [next .token, self (.expression true), semicolon] r
  else if r.isMark "*" then
    all [next .token, optionally (all [word "as", orElse name quoted]), exportSource self, semicolon] r
  else if r.startsWith '{' then all [nameList, exportSource self, semicolon] r
  else if r.isWord "type" && r.advance.isMarkOf ["\x7b", "*"] then
    all [next .token, orElse nameList (all [mark "*", optionally (all [word "as", name])]), exportSource self,
      semicolon] r
  else if r.isWord "as" then all [next .token, word "namespace", name, semicolon] r
  else self .statement r

def exportStatement : Rule :=
  node .exportStatement (all [many (decorator self), word "export", exported self])

/-- The left side of a loop over values or keys. -/
def loopOver : Rule :=
  let initial := optionally (all [mark "=", self (.assignment false false)])
  let declared := all [wordOf variableWords, binding self, optionally (colonType self), initial]
  all [orElse (all [declared, wordOf ["of", "in"]]) (all [self (.operand false false), wordOf ["of", "in"]]),
    self (.expression true)]

/-- The start, the condition and the step of a loop. -/
def loopSteps : Rule :=
  let start := given (·.isWordOf variableWords) (variableDeclaration self false)
    (all [self (.expression false), mark ";"])
  let rest := optionally (self (.expression true))
  all [orElse (mark ";") start, rest, mark ";", rest]

def switchCase : Rule :=
  let value := self (.assignment true true)
  let label := orElse (all [word "case", value, many (all [comma, value])]) (word "default")
  let inner := only (fun r => !r.startsWith '}' && !r.isWord "case" && !(r.isWord "default" && r.advance.isMark ":"))
    (orElse (self .statement) (next .token))
  node .construct (all [label, mark ":", many inner])

/-- An expression on the same line as the word before it. -/
def sameLineExpression : Rule :=
  given (fun r => r.lineBreak || r.isMarkOf [";", "\x7d"]) done (optionally (self (.expression true)))

/-- A statement that starts with the keyword `w`; refuses where none does. -/
def keywordStatement (w : String) : Rule :=
  let inner := self .statement
  let construct := fun ps : List Rule => node .construct (all (next .token :: ps))
  match w with
  | "if" => construct [condition self, inner, optionally (all [word "else", inner])]
  | "for" =>
    construct [optionally (word "await"), mark "(", orElse (loopOver self) (loopSteps self), mark ")", inner]
  | "while" | "with" => construct [condition self, inner]
  | "do" => construct [inner, word "while", condition self, semicolon]
  | "switch" => construct [condition self, node .construct (all [single '{', many (switchCase self), single '}'])]
  | "try" =>
    construct [self .block,
      optionally (all [word "catch", optionally (only (·.isMark "(") (parameters self)), self .block]),
      optionally (all [word "finally", self .block])]
  | "return" | "throw" => construct [sameLineExpression self, semicolon]
  | "break" | "continue" => construct [optionally (only (fun r => !r.lineBreak) name), semicolon]
  | "debugger" => construct [semicolon]
  | "var" => variableDeclaration self true
  | "const" => given (·.advance.isWord "enum") (enumDeclaration self) (variableDeclaration self true)
  | "function" => functionDeclaration self
  | "class" => classDeclaration self
  | "enum" => enumDeclaration self
  | "export" => exportStatement self
  | _ => fail

/-- A statement that starts with the word `w`, which may also be a name; refuses where it is one. -/
def wordStatement (w : String) : Rule := fun r =>
  let after := r.advance
  let named := after.isAnyWord && !after.lineBreak && !after.isWordOf ["in", "instanceof"]
  match w with
  | "let" => if after.isAnyWord || after.isMarkOf ["\x7b", "["] then variableDeclaration self true r else none
  | "async" => if after.isWord "function" && !after.lineBreak then functionDeclaration self r else none
  | "abstract" => if after.isWord "class" then classDeclaration self r else none
  | "interface" => if named then interfaceDeclaration self r else none
  | "type" => if named then typeAlias self r else none
  | "namespace" | "module" =>
    if named || (after.token == .quoted && !after.lineBreak) then namespaceDeclaration self r else none
  | "declare" => if after.isWordOf ambientWords && !after.lineBreak then ambientDeclaration self r else none
  | "import" => if after.isMarkOf ["(", "."] then none else importDeclaration self r
  | _ => none

def labelled : Rule :=
  only (fun r => r.isAnyWord && r.advance.isMark ":")
    (node .construct (all [name, mark ":", self .statement]))

def statement : Rule := fun r =>
  match r.token with
  | .mark "\x7b" => self .block r
  | .mark ";" => node .construct (mark ";") r
  | .mark "@" => orElse (exportStatement self) (classDeclaration self) r
  | .word w =>
    orElse (keywordStatement self w) (orElse (wordStatement self w)
      (orElse (labelled self) (expressionStatement self))) r
  | .stop => none
  | _ => expressionStatement self r

end NameAdvisor.Grammar
