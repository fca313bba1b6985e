import NameAdvisor.Grammar.Statement

/-!
# Whole sources

## Main definitions

* `Grammar.goal`: the rule for each construct that contains others.
* `Tree.ofSource`: the tree of a source.
-/

namespace NameAdvisor

namespace Grammar

open Rule

/-- The rule for a construct, given the rules for the constructs within it. -/
def rule (self : Goal → Rule) : Goal → Rule
  | .statement => statement self
  | .block => block self
  | .expression inAllowed => expression self inAllowed
  | .assignment inAllowed inBranch => assignment self inAllowed inBranch
  | .operand inAllowed inBranch => operand self inAllowed inBranch
  | .type => type self
  | .element => element self

/-- The rule for a construct that is nested at most `depth` deep. -/
def goal : Nat → Goal → Rule
  | 0, _ => fail
  | depth + 1, g => rule (goal depth) g

/-- The first line of a script that names its interpreter. -/
def interpreterLine : Rule :=
  only (fun r => "#!".toList.isPrefixOf r.rest) (raw (runSize (· != '\n')))

/-- All statements of a source, and the comments after them. -/
def program (self : Goal → Rule) : Rule :=
  all [optionally interpreterLine, many (orElse (self .statement) (next .token)), fun r => some (r.comments, r)]

/-- How deep the constructs of a source of some length can be nested: each level of nesting takes a few rules, and
at least one character. -/
def depthLimit (length : Nat) : Nat :=
  16 * (length + 1)

end Grammar

/-- The place before the first token of a source. -/
def Reader.ofSource (language : SourceLanguage) (source : List Char) : Reader :=
  Reader.moveTo { (default : Reader) with language, budget := source.length } 0 source

def Tree.ofSource (language : SourceLanguage) (source : List Char) : Tree :=
  let read := Grammar.program (Grammar.goal (Grammar.depthLimit source.length)) (Reader.ofSource language source)
  .node .construct none ⟨0, source.length⟩ ((read.map (·.1)).getD [])

end NameAdvisor
