/-!
# Blank characters

Which characters count as white space, and how a text is stripped of them at its ends.

## Main definitions

* `isBlank`: Unicode's white space.
* `trim`: a text without the blanks at its two ends.
* `isBlankText`: a text of blanks only.
-/

namespace NameAdvisor.Text

/-- White space as Unicode defines it: the tab-like controls, the space, and the wider spaces and separators. -/
def isBlank (c : Char) : Bool :=
  let n := c.toNat
  (9 ≤ n && n ≤ 13) || n == 0x20 || n == 0x85 || n == 0xA0 || n == 0x1680 ||
    (0x2000 ≤ n && n ≤ 0x200A) || n == 0x2028 || n == 0x2029 || n == 0x202F || n == 0x205F || n == 0x3000

/-- The characters of `s` from its first to its last that is not blank. -/
def trimChars (s : List Char) : List Char :=
  ((s.dropWhile isBlank).reverse.dropWhile isBlank).reverse

/-- `s` without the blanks at its two ends. -/
def trim (s : String) : String :=
  String.ofList (trimChars s.toList)

/-- Whether `s` holds no character but blanks. -/
def isBlankText (s : String) : Bool :=
  s.toList.all isBlank

@[simp] theorem toList_trim (s : String) : (trim s).toList = trimChars s.toList := by
  simp [trim]

@[simp] theorem trimChars_nil : trimChars [] = [] := rfl

theorem trimChars_of_all_blank {s : List Char} (h : ∀ c ∈ s, isBlank c = true) : trimChars s = [] := by
  have : s.dropWhile isBlank = [] := by
    induction s with
    | nil => rfl
    | cons c s ih => simp_all
  simp [trimChars, this]

/-- Every white space that the core library knows is blank. -/
theorem isBlank_of_isWhitespace {c : Char} (h : c.isWhitespace = true) : isBlank c = true := by
  simp only [Char.isWhitespace, Bool.or_eq_true, decide_eq_true_eq] at h
  rcases h with ((h | h) | h) | h <;> subst h <;> decide

end NameAdvisor.Text
