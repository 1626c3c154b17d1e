import Blockwork.Decimal.Binary

/-!
# The fewest digits that read back

The decimal written for a binary number is the one with the fewest digits that is rounded back to
that number, and of those the nearest.  For one digit, two digits and so on the two neighbours of
the number on the decimal grid of that many digits are tried; the first grid with a neighbour that
reads back decides.  Every binary number is itself a finite decimal, which is the answer should no
shorter one read back, so the result always reads back, whatever the format.
-/

namespace Blockwork

/-- The number `coefficient · 10^exponent`. -/
structure Decimal where
  /-- The digits. -/
  coefficient : Nat
  /-- The power of ten they are multiplied by. -/
  exponent : Int
deriving DecidableEq

/-- Which of two equally near decimals is written. -/
inductive Tie where
  /-- The greater one. -/
  | up
  /-- The one whose last digit is even. -/
  | even

namespace Decimal

/-- The decimal as a quotient of naturals. -/
def ratio (d : Decimal) : Nat × Nat :=
  if 0 ≤ d.exponent then (d.coefficient * Nat.pow 10 d.exponent.toNat, 1)
  else (d.coefficient, Nat.pow 10 (-d.exponent).toNat)

/-- The bit pattern, without sign, of the number nearest to a decimal.  A decimal far beyond either
end of the format is recognised by the lengths of its parts and not computed. -/
def encode (f : Binary.Format) (d : Decimal) : Nat :=
  if d.coefficient = 0 then 0
  else if (Nat.pow 2 f.exponent : Nat) ≤ d.exponent then f.infinity
  else if (d.coefficient.log2 : Int) + 3 * d.exponent < f.least - 2 then 0
  else Binary.encode f d.ratio.1 d.ratio.2

/-- Drops up to `n` zeros at the end of the digits. -/
def dropZeros : Nat → Decimal → Decimal
  | 0, d => d
  | n + 1, d =>
    if d.coefficient % 10 = 0 ∧ d.coefficient ≠ 0 then
      dropZeros n ⟨d.coefficient / 10, d.exponent + 1⟩
    else d

/-- How many decimal digits stand before the point of `n / d`, counting down from zero for a number
below one: the greatest `p` with `10^(p-1) ≤ n / d`. -/
def position (n d : Nat) : Int :=
  let k := Binary.floorLog2 n d
  let p := (k * 30103).fdiv 100000 + 1
  let reached := if 0 ≤ p then d * Nat.pow 10 p.toNat ≤ n else d ≤ n * Nat.pow 10 (-p).toNat
  if reached then p + 1 else p

/-- The value as a multiple of `10^e`, as a quotient. -/
def onGrid (n d : Nat) (e : Int) : Nat × Nat :=
  if 0 ≤ e then (n, d * Nat.pow 10 e.toNat) else (n * Nat.pow 10 (-e).toNat, d)

/-- The better neighbour of `n / d` on the grid of multiples of `10^e` among those that read back
as the given pattern. -/
def neighbour? (f : Binary.Format) (tie : Tie) (bits n d : Nat) (e : Int) : Option Decimal :=
  let (a, b) := onGrid n d e
  let below := a / b
  let rest := a % b
  let low : Decimal := ⟨below, e⟩
  let high : Decimal := ⟨below + 1, e⟩
  let nearer :=
    if 2 * rest < b then low
    else if b < 2 * rest then high
    else match tie with
      | .up => high
      | .even => if below % 2 = 0 then low else high
  let farther := if nearer = low then high else low
  if encode f nearer = bits then some nearer
  else if encode f farther = bits then some farther
  else none

/-- Tries grids of `digits`, `digits + 1`, … digits, as many as there is room for. -/
def seek (f : Binary.Format) (tie : Tie) (bits n d : Nat) (top : Int) : Nat → Nat → Option Decimal
  | 0, _ => none
  | room + 1, digits =>
    match neighbour? f tie bits n d (top - digits) with
    | some found => some found
    | none => seek f tie bits n d top room (digits + 1)

/-- The number `m · 2^q` written out in full. -/
def exact (m : Nat) (q : Int) : Decimal :=
  if 0 ≤ q then ⟨m * Nat.pow 2 q.toNat, 0⟩ else ⟨m * Nat.pow 5 (-q).toNat, q⟩

/-- The decimal with the fewest digits that reads back as `m · 2^q`, which must be a number of the
format. -/
def shortest (f : Binary.Format) (tie : Tie) (m : Nat) (q : Int) : Decimal :=
  if m = 0 then ⟨0, 0⟩
  else
    let n := if 0 ≤ q then m * Nat.pow 2 q.toNat else m
    let d := if 0 ≤ q then 1 else Nat.pow 2 (-q).toNat
    match seek f tie (Binary.encodeScaled f m q) n d (position n d) 17 1 with
    | some found => dropZeros 17 found
    | none => exact m q

end Decimal

end Blockwork
