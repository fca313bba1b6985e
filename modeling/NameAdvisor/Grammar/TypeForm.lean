import NameAdvisor.Grammar.Rule

/-!
# Types

The grammar of type annotations, as far as it decides where a type ends.

## Main definitions

* `Grammar.type`: a type, with unions and conditions.
* `Grammar.typeArguments`, `Grammar.typeParameters`: lists between angle brackets.
* `Grammar.template`: a template with holes, among types and among expressions.
-/

namespace NameAdvisor.Grammar

open Rule

/-- A template whose holes are read with `hole`. -/
def template (hole : Rule) : Rule :=
  let filled := only (fun r => ['$', '{'].isPrefixOf r.rest) (all [next .token, single '{', hole, single '}'])
  node .construct (all [mark "`", many (orElse (raw templateSize) filled), mark "`"])

variable (self : Goal → Rule)

def typeArguments : Rule :=
  node .construct (all [single '<', separated (self .type), single '>'])

/-- A parameter of a generic type or function, with its bound and its default. -/
def typeParameter : Rule :=
  let nameWord := token fun r => r.isAnyWord && !r.isWord "extends"
  all [nameWord, many nameWord, optionally (all [word "extends", self .type]), optionally (all [mark "=", self .type])]

def typeParameters : Rule :=
  node .construct (all [single '<', separated (typeParameter self), single '>'])

def colonType : Rule :=
  all [mark ":", self .type]

/-- A part of a tuple or of the parameters of a function type. -/
def typeItem : Rule :=
  all [optionally (mark "..."), self .type, optionally (mark "?"), optionally (colonType self)]

/-- Types between parentheses: the parameters of a function type if an arrow follows. -/
def typeParentheses : Rule :=
  all [mark "(", separated (typeItem self), mark ")", optionally (all [mark "=>", self .type])]

/-- What stands between the brackets of a member of an object type. -/
def memberBrackets : Rule :=
  let key := only (fun r => r.advance.isMark ":") (all [name, colonType self])
  let mapped := only (fun r => r.advance.isWord "in")
    (all [name, word "in", self .type, optionally (all [word "as", self .type])])
  all [mark "[", orElse key (orElse mapped (self (.expression true))), mark "]"]

/-- A member of an object type: modifiers and name, parameters, type. -/
def typeMember : Rule :=
  let piece := orElse (token fun r => r.isAnyWord || r.isMarkOf ["+", "-", "?", "!", "..."] || r.token == .quoted ||
    r.token == .number || r.token == .privateName) (memberBrackets self)
  all [many piece, optionally (typeParameters self),
    optionally (all [mark "(", separated (typeItem self), mark ")"]), optionally (colonType self)]

def objectType : Rule :=
  node .construct (all [single '{', many (orElse (markOf [";", ","]) (typeMember self)), single '}'])

def startsType (r : Reader) : Bool :=
  match r.token with
  | .word w => !(["extends", "is", "in", "of", "as", "satisfies", "implements"].contains w)
  | .mark m => ["\x7b", "[", "(", "`", "-", "<", "<<"].contains m
  | .number | .quoted => true
  | _ => false

/-- Names with points between them, and arguments. -/
def typeReference : Rule :=
  all [next .token, many (all [mark ".", token fun r => r.isAnyWord || r.token == .privateName]),
    optionally (only (!·.lineBreak) (typeArguments self))]

/-- A word that stands in front of a type. -/
def typeOperator : Rule :=
  token fun r =>
    r.isWordOf ["keyof", "unique", "readonly", "infer", "asserts", "typeof", "abstract", "new"] &&
      (let after := r.advance
       startsType after && !after.lineBreak || after.isWord "this")

/-- A type without operators in front of it and behind it. -/
def typePrimary : Rule := fun r =>
  match r.token with
  | .number | .quoted => next .token r
  | .mark "-" => all [next .token, token (·.token == .number)] r
  | .mark "`" => template (self .type) r
  | .mark "\x7b" => objectType self r
  | .mark "[" => all [mark "[", separated (typeItem self), mark "]"] r
  | .mark "(" => typeParentheses self r
  | .mark "<" => all [typeParameters self, typeParentheses self] r
  | .word "import" =>
    all [word "import", mark "(", separated (orElse (objectType self) (self .type)), mark ")",
      many (all [mark ".", name]), optionally (typeArguments self)] r
  | .word _ =>
    all [typeReference self, optionally (only (!·.lineBreak) (all [word "is", self .type]))] r
  | _ => none

/-- What may follow a type on its line: brackets. -/
def typeSuffix : Rule :=
  only (!·.lineBreak) (all [mark "[", optionally (self .type), mark "]"])

/-- A type without unions and conditions. -/
def typeOperand : Rule := fun r =>
  if r.isWord "infer" && r.advance.isAnyWord then
    all [word "infer", name, optionally (all [word "extends", typePrimary self, many (typeSuffix self)])] r
  else all [many typeOperator, typePrimary self, many (typeSuffix self)] r

/-- A type: operands with bars and ampersands between them, and a choice after `extends`. -/
def type : Rule :=
  let joint := markOf ["|", "&"]
  node .construct (all [optionally joint, typeOperand self, many (all [joint, typeOperand self]),
    optionally (all [only (!·.lineBreak) (word "extends"), self .type, mark "?", self .type, mark ":", self .type])])

end NameAdvisor.Grammar
