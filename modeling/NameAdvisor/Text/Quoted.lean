import NameAdvisor.Text.HiddenTable
import NameAdvisor.Text.Case

/-!
# Quoted texts in messages

How a message shows a text: in double quotes, with escapes for the quote, the backslash and everything that
would not be seen.

## Main definitions

* `hex`: a number in lower-case hexadecimal digits.
* `quoted`: a text as a message shows it.
-/

namespace NameAdvisor.Text

def hex (n : Nat) : List Char :=
  Nat.toDigits 16 n

/-- Whether `c` shows nothing by itself. -/
def isHidden (c : Char) : Bool :=
  c.toNat < 0x20 || c.toNat == 0x7F || (0x80 ≤ c.toNat && inRanges hiddenRanges c.toNat)

def quotedChar (c : Char) : List Char :=
  if c == '\x00' then ['\\', '0']
  else if c == '\t' then ['\\', 't']
  else if c == '\n' then ['\\', 'n']
  else if c == '\r' then ['\\', 'r']
  else if c == '"' || c == '\\' then ['\\', c]
  else if isHidden c then ['\\', 'u', '\x7b'] ++ hex c.toNat ++ ['\x7d']
  else [c]

def quoted (s : String) : String :=
  String.ofList (['"'] ++ s.toList.flatMap quotedChar ++ ['"'])

end NameAdvisor.Text
