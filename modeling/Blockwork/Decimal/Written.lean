import Blockwork.Decimal.Shortest
import Blockwork.Text.Integer

/-!
# Written numbers

Two ways of writing a number.  In *plain* notation every digit is written out, however large or
small the number, and a whole number has no point.  In *document* notation a number always has a
point or an exponent, so that it is read back as a number with a fraction part: positional between
`1e-5` and `1e16`, with an explicitly signed exponent elsewhere.

Text shown to actors uses plain notation, with the refinement that whole numbers below `1e15` are
written as integers, which drops the sign of zero.
-/

namespace Blockwork.Decimal

/-- A run of zeros. -/
def zeros (n : Nat) : String := String.ofList (List.replicate n '0')

/-- The digits with the point in its place, and no point in a whole number. -/
def positional (d : Decimal) : String :=
  let digits := Text.natural d.coefficient
  if 0 ≤ d.exponent then
    if d.coefficient = 0 then digits else digits ++ zeros d.exponent.toNat
  else
    let places := (-d.exponent).toNat
    if places < digits.length then
      let cs := digits.toList
      let cut := cs.length - places
      String.ofList (cs.take cut) ++ "." ++ String.ofList (cs.drop cut)
    else "0." ++ zeros (places - digits.length) ++ digits

/-- The first digit, the others after a point, and the signed exponent of ten. -/
def scientific (d : Decimal) : String :=
  let digits := Text.natural d.coefficient
  let power := d.exponent + digits.length - 1
  let head := String.ofList (digits.toList.take 1)
  let tail := String.ofList (digits.toList.drop 1)
  let mantissa := if tail.isEmpty then head else head ++ "." ++ tail
  mantissa ++ (if 0 ≤ power then "e+" else "e-") ++ Text.natural power.natAbs

/-- A minus sign for a negative number. -/
def signed (negative : Bool) (s : String) : String := if negative then "-" ++ s else s

/-- Plain notation of what a bit pattern stands for. -/
def plainReading (f : Binary.Format) : Binary.Reading → String
  | .nan => "NaN"
  | .infinite s => signed s "inf"
  | .finite s m q => signed s (shortest f .up m q).positional

/-- A double in plain notation. -/
def plain (x : Float) : String := plainReading Binary.double (Binary.read x)

/-- A single in plain notation. -/
def plainSingle (x : Float32) : String := plainReading Binary.single (Binary.readSingle x)

/-- A finite double in document notation; `none` for what has no such form. -/
def document? (x : Float) : Option String :=
  match Binary.read x with
  | .finite s m q =>
    let d := shortest Binary.double .even m q
    let power := d.exponent + (Text.natural d.coefficient).length - 1
    let written :=
      if m = 0 then "0.0"
      else if -5 ≤ power ∧ power < 16 then
        if 0 ≤ d.exponent then d.positional ++ ".0" else d.positional
      else d.scientific
    some (signed s written)
  | _ => none

/-- A number as actors see it: an integer where it is one and below `1e15`, plain otherwise. -/
def display (x : Float) : String :=
  match Binary.read x with
  | .finite s m q =>
    if Binary.isWhole x && decide (x.abs < 1e15) then
      let n := Binary.wholeDown m q
      signed (s && n != 0) (Text.natural n)
    else plain x
  | _ => plain x

end Blockwork.Decimal
