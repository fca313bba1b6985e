/-!
# Double-precision numbers

A number of the 64-bit binary floating-point format, kept as its bits, and its shortest decimal text.

## Main definitions

* `Double`: the bits of a number.
* `Double.shortest`: the fewest digits that read back as the same number.
* `Double.text`: those digits laid out, positional for moderate sizes and with an exponent for others.
-/

namespace NameAdvisor

/-- A double-precision number, by its bits. -/
structure Double where
  bits : UInt64
  deriving DecidableEq, Repr, Inhabited

namespace Double

/-- The number that a machine word holds. -/
def ofFloat (x : Float) : Double :=
  ⟨x.toBits⟩

def isNegative (x : Double) : Bool :=
  Nat.pow 2 63 ≤ x.bits.toNat

def exponentField (x : Double) : Nat :=
  x.bits.toNat / Nat.pow 2 52 % Nat.pow 2 11

def fractionField (x : Double) : Nat :=
  x.bits.toNat % Nat.pow 2 52

/-- The integer `m` of the magnitude `m · 2 ^ q`. -/
def significand (x : Double) : Nat :=
  if x.exponentField = 0 then x.fractionField else Nat.pow 2 52 + x.fractionField

/-- The exponent `q` of the magnitude `m · 2 ^ q`. -/
def scale (x : Double) : Int :=
  if x.exponentField = 0 then -1074 else Int.ofNat x.exponentField - 1075

/-- Whether the next smaller number is only half as far away as the next larger one. -/
def isNarrowBelow (x : Double) : Bool :=
  x.fractionField = 0 && 1 < x.exponentField

/-- A positive rational number as a pair of naturals. -/
structure Ratio where
  num : Nat
  den : Nat

/-- `m · 2 ^ q / 4`. -/
def quarter (m : Nat) (q : Int) : Ratio :=
  match q with
  | .ofNat n => ⟨m * Nat.pow 2 n, 4⟩
  | .negSucc n => ⟨m, 4 * Nat.pow 2 (n + 1)⟩

/-- `d · 10 ^ k` compared with `r`, both cleared of denominators. -/
def clear (d : Nat) (k : Int) (r : Ratio) : Nat × Nat :=
  match k with
  | .ofNat n => (d * Nat.pow 10 n * r.den, r.num)
  | .negSucc n => (d * r.den, r.num * Nat.pow 10 (n + 1))

/-- The number of zeros, counted on from `n`, right after the point of a ratio below one. -/
def zerosAfterPoint (r : Ratio) : Nat → Nat → Nat
  | 0, n => n
  | fuel + 1, n => if r.den ≤ r.num * Nat.pow 10 (n + 1) then n else zerosAfterPoint r fuel (n + 1)

/-- The number of decimal digits before the point of `r`, or minus the number of zeros right after it. -/
def decade (r : Ratio) : Int :=
  if r.den ≤ r.num then Int.ofNat (Nat.toDigits 10 (r.num / r.den)).length
  else Int.neg (Int.ofNat (zerosAfterPoint r 400 0))

/-- The digits and the power of ten of the decimal with `n` digits that is nearest to `m · 2 ^ q` among the two
neighbours on that grid, if one of them reads back. -/
def onGrid (m : Nat) (q : Int) (narrow : Bool) (n : Nat) : Option (Nat × Int) :=
  let value := quarter (4 * m) q
  let low := quarter (4 * m - if narrow then 1 else 2) q
  let high := quarter (4 * m + 2) q
  let k := decade value - Int.ofNat n
  let below :=
    match k with
    | .ofNat j => value.num / (value.den * Nat.pow 10 j)
    | .negSucc j => value.num * Nat.pow 10 (j + 1) / value.den
  let inside (d : Nat) : Bool :=
    let (a, b) := clear d k low
    let (c, e) := clear d k high
    if m % 2 = 0 then b ≤ a && c ≤ e else b < a && c < e
  let distance (d : Nat) : Nat :=
    let (a, b) := clear d k value
    if a ≤ b then b - a else a - b
  match inside below, inside (below + 1) with
  | true, true =>
    if distance below < distance (below + 1) then some (below, k)
    else if distance (below + 1) < distance below then some (below + 1, k)
    else some (if below % 2 = 0 then below else below + 1, k)
  | true, false => some (below, k)
  | false, true => some (below + 1, k)
  | false, false => none

/-- The fewest digits that read back as `x`, and the power of ten they count. -/
def shortest (x : Double) : Nat × Int :=
  if x.significand = 0 then (0, 0)
  else
    match (List.range 17).findSome? fun n => onGrid x.significand x.scale x.isNarrowBelow (n + 1) with
    | some (d, k) => if d % 10 = 0 then (d / 10, k + 1) else (d, k)
    | none => (0, 0)

/-- Digits `ds` that count `10 ^ k`: positional while the point falls among the first sixteen places or at most
five places before them, with an exponent otherwise. -/
def layOut (ds : List Char) (k : Int) : List Char :=
  let point := Int.ofNat ds.length + k
  if 0 ≤ k && point ≤ 16 then ds ++ List.replicate k.toNat '0' ++ ['.', '0']
  else if 0 < point && point ≤ 16 then ds.take point.toNat ++ ['.'] ++ ds.drop point.toNat
  else if -5 < point && point ≤ 0 then ['0', '.'] ++ List.replicate (-point).toNat '0' ++ ds
  else
    let exponent := (toString (point - 1)).toList
    match ds with
    | [d] => [d, 'e'] ++ exponent
    | d :: rest => [d, '.'] ++ rest ++ ['e'] ++ exponent
    | [] => []

/-- The shortest text that reads back as `x`. -/
def text (x : Double) : String :=
  let sign := if x.isNegative then ['-'] else []
  if x.significand = 0 then String.ofList (sign ++ ['0', '.', '0'])
  else
    let (d, k) := x.shortest
    String.ofList (sign ++ layOut (Nat.toDigits 10 d) k)

end Double

end NameAdvisor
