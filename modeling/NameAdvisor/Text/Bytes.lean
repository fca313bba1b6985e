/-!
# Bytes in plain characters

Hexadecimal digits, of which two make a byte, and the digits of base 64, of which four make three.

## Main definitions

* `hexDigit?`: the value of a hexadecimal digit.
* `base64`: bytes in digits of base 64.
-/

namespace NameAdvisor.Text

def hexDigit? (c : Char) : Option Nat :=
  if '0' ≤ c && c ≤ '9' then some (c.toNat - '0'.toNat)
  else if 'a' ≤ c && c ≤ 'f' then some (c.toNat - 'a'.toNat + 10)
  else if 'A' ≤ c && c ≤ 'F' then some (c.toNat - 'A'.toNat + 10)
  else none

/-- The digits of base 64, in the order of their values. -/
def base64Digits : List Char :=
  "ABCDEFGHIJKLMNOPQRSTUVWXYZabcdefghijklmnopqrstuvwxyz0123456789+/".toList

/-- The first `count` of the four digits of `n`, filled up with equals signs. -/
def base64Group (n count : Nat) : List Char :=
  let digits := [n / 0x40000, n / 0x1000, n / 0x40, n].map fun m => base64Digits.getD (m % 64) '='
  digits.take count ++ List.replicate (4 - count) '='

/-- Bytes in digits of base 64, four for every three bytes begun. -/
def base64 : List UInt8 → List Char
  | [] => []
  | [a] => base64Group (65536 * a.toNat) 2
  | [a, b] => base64Group (65536 * a.toNat + 256 * b.toNat) 3
  | a :: b :: c :: rest => base64Group (65536 * a.toNat + 256 * b.toNat + c.toNat) 4 ++ base64 rest

end NameAdvisor.Text
