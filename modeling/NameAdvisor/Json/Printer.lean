import NameAdvisor.Json.Basic
import NameAdvisor.Text.Quoted

/-!
# Writing JSON

## Main definitions

* `Json.compact`: a value on one line without blanks.
* `Json.pretty`: a value with one member or item a line, indented by two spaces a level.
-/

namespace NameAdvisor.Json

/-- `n` as a hexadecimal numeral of four digits. -/
def fourHex (n : Nat) : List Char :=
  let ds := Text.hex n
  List.replicate (4 - ds.length) '0' ++ ds

/-- `c` inside a JSON string: the quote, the backslash and the controls are escaped. -/
def escapeChar (c : Char) : List Char :=
  if c == '"' then ['\\', '"']
  else if c == '\\' then ['\\', '\\']
  else if c.toNat < 0x20 then
    match c.toNat with
    | 8 => ['\\', 'b']
    | 9 => ['\\', 't']
    | 10 => ['\\', 'n']
    | 12 => ['\\', 'f']
    | 13 => ['\\', 'r']
    | n => ['\\', 'u'] ++ fourHex n
  else [c]

def stringChars (s : String) : List Char :=
  ['"'] ++ s.toList.flatMap escapeChar ++ ['"']

mutual

/-- The characters of a value on one line. -/
def compactChars : Json → List Char
  | .null => ['n', 'u', 'l', 'l']
  | .bool true => ['t', 'r', 'u', 'e']
  | .bool false => ['f', 'a', 'l', 's', 'e']
  | .number n => n.text.toList
  | .string s => stringChars s
  | .array items => ['['] ++ compactItems items ++ [']']
  | .object members => ['\x7b'] ++ compactMembers members ++ ['\x7d']

def compactItems : List Json → List Char
  | [] => []
  | [j] => compactChars j
  | j :: rest => compactChars j ++ [','] ++ compactItems rest

def compactMembers : List (String × Json) → List Char
  | [] => []
  | [(k, j)] => stringChars k ++ [':'] ++ compactChars j
  | (k, j) :: rest => stringChars k ++ [':'] ++ compactChars j ++ [','] ++ compactMembers rest

end

/-- A value on one line, without blanks. -/
def compact (j : Json) : String :=
  String.ofList (compactChars j)

/-- A line break and the indentation of `level`. -/
def newLine (level : Nat) : List Char :=
  '\n' :: List.replicate (2 * level) ' '

mutual

/-- The characters of a value whose lines are indented from `level` on. -/
def prettyChars (level : Nat) : Json → List Char
  | .array [] => ['[', ']']
  | .array items => ['['] ++ prettyItems (level + 1) items ++ newLine level ++ [']']
  | .object [] => ['\x7b', '\x7d']
  | .object members => ['\x7b'] ++ prettyMembers (level + 1) members ++ newLine level ++ ['\x7d']
  | .null => ['n', 'u', 'l', 'l']
  | .bool true => ['t', 'r', 'u', 'e']
  | .bool false => ['f', 'a', 'l', 's', 'e']
  | .number n => n.text.toList
  | .string s => stringChars s

def prettyItems (level : Nat) : List Json → List Char
  | [] => []
  | [j] => newLine level ++ prettyChars level j
  | j :: rest => newLine level ++ prettyChars level j ++ [','] ++ prettyItems level rest

/-- The members of an object, each on a line of its own. -/
def prettyMembers (level : Nat) : List (String × Json) → List Char
  | [] => []
  | [(k, j)] => newLine level ++ stringChars k ++ [':', ' '] ++ prettyChars level j
  | (k, j) :: rest =>
    newLine level ++ stringChars k ++ [':', ' '] ++ prettyChars level j ++ [','] ++ prettyMembers level rest

end

/-- A value with one member or item a line. -/
def pretty (j : Json) : String :=
  String.ofList (prettyChars 0 j)

end NameAdvisor.Json
