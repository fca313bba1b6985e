import NameAdvisor.Json.Printer
import NameAdvisor.Json.Parser

/-!
# Layouts of JSON values

A value is written on one line or with line breaks and indentation.  Both are layouts of the same tokens, and differ in
the blanks between them only.

## Main definitions

* `Json.Layout`: the blanks between the tokens of a value.
* `Json.Layout.chars`: the characters of a value in a layout.
-/

namespace NameAdvisor.Json

/-- The blanks between the tokens of a value. -/
structure Layout where
  /-- What stands before each item of a level, and before the bracket that closes the level below. -/
  line : Nat → List Char
  /-- What stands after a colon. -/
  gap : List Char
  isSpace_of_mem_line : ∀ {level c}, c ∈ line level → isSpace c
  isSpace_of_mem_gap : ∀ {c}, c ∈ gap → isSpace c

namespace Layout

/-- Everything on one line. -/
def compact : Layout where
  line _ := []
  gap := []
  isSpace_of_mem_line := by simp
  isSpace_of_mem_gap := by simp

/-- An item a line. -/
def pretty : Layout where
  line := newLine
  gap := [' ']
  isSpace_of_mem_line {level c} h := by
    obtain rfl | h := List.mem_cons.mp h
    · rfl
    · rw [List.eq_of_mem_replicate h]
      rfl
  isSpace_of_mem_gap h := by
    rw [List.mem_singleton.mp h]
    rfl

@[simp] theorem line_compact (level : Nat) : compact.line level = [] := rfl
@[simp] theorem gap_compact : compact.gap = [] := rfl
@[simp] theorem line_pretty (level : Nat) : pretty.line level = newLine level := rfl
@[simp] theorem gap_pretty : pretty.gap = [' '] := rfl

variable (l : Layout)

mutual

def chars (level : Nat) : Json → List Char
  | .array [] => ['[', ']']
  | .array items => ['['] ++ itemChars (level + 1) items ++ l.line level ++ [']']
  | .object [] => ['\x7b', '\x7d']
  | .object members => ['\x7b'] ++ memberChars (level + 1) members ++ l.line level ++ ['\x7d']
  | .null => ['n', 'u', 'l', 'l']
  | .bool true => ['t', 'r', 'u', 'e']
  | .bool false => ['f', 'a', 'l', 's', 'e']
  | .number n => n.text.toList
  | .string s => stringChars s

def itemChars (level : Nat) : List Json → List Char
  | [] => []
  | [j] => l.line level ++ chars level j
  | j :: rest => l.line level ++ chars level j ++ [','] ++ itemChars level rest

def memberChars (level : Nat) : List (String × Json) → List Char
  | [] => []
  | [(k, j)] => l.line level ++ stringChars k ++ [':'] ++ l.gap ++ chars level j
  | (k, j) :: rest =>
    l.line level ++ stringChars k ++ [':'] ++ l.gap ++ chars level j ++ [','] ++ memberChars level rest

end

mutual

theorem chars_pretty (level : Nat) : ∀ j, pretty.chars level j = prettyChars level j
  | .null | .bool true | .bool false | .number _ | .string _ | .array [] | .object [] => by simp [chars, prettyChars]
  | .array (j :: items) => by simp [chars, prettyChars, itemChars_pretty]
  | .object (m :: members) => by simp [chars, prettyChars, memberChars_pretty]

theorem itemChars_pretty (level : Nat) : ∀ items, pretty.itemChars level items = prettyItems level items
  | [] => by simp [itemChars, prettyItems]
  | [j] => by simp [itemChars, prettyItems, chars_pretty]
  | j :: j' :: items => by simp [itemChars, prettyItems, chars_pretty, itemChars_pretty]

theorem memberChars_pretty (level : Nat) : ∀ members, pretty.memberChars level members = prettyMembers level members
  | [] => by simp [memberChars, prettyMembers]
  | [(k, j)] => by simp [memberChars, prettyMembers, chars_pretty]
  | (k, j) :: m :: members => by simp [memberChars, prettyMembers, chars_pretty, memberChars_pretty]

end

mutual

theorem chars_compact (level : Nat) : ∀ j, compact.chars level j = compactChars j
  | .null | .bool true | .bool false | .number _ | .string _ => by simp [chars, compactChars]
  | .array [] => by simp [chars, compactChars, compactItems]
  | .object [] => by simp [chars, compactChars, compactMembers]
  | .array (j :: items) => by simp [chars, compactChars, itemChars_compact]
  | .object (m :: members) => by simp [chars, compactChars, memberChars_compact]

theorem itemChars_compact (level : Nat) : ∀ items, compact.itemChars level items = compactItems items
  | [] => by simp [itemChars, compactItems]
  | [j] => by simp [itemChars, compactItems, chars_compact]
  | j :: j' :: items => by simp [itemChars, compactItems, chars_compact, itemChars_compact]

theorem memberChars_compact (level : Nat) : ∀ members, compact.memberChars level members = compactMembers members
  | [] => by simp [memberChars, compactMembers]
  | [(k, j)] => by simp [memberChars, compactMembers, chars_compact]
  | (k, j) :: m :: members => by simp [memberChars, compactMembers, chars_compact, memberChars_compact]

end

end Layout

end NameAdvisor.Json
