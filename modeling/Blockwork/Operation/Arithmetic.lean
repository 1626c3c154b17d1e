import Blockwork.Dice
import Blockwork.Failure

/-!
# Calculations

The operations of a math block.  An operation outside its domain and a result that is not finite
fail; a result beyond the magnitude limit is clamped to it.  Clamping panics if the limit is negative,
since the bounds are then the wrong way round.
-/

namespace Blockwork

/-- A number kept between two bounds, the lower one tested first.  The bounds have to be in order. -/
def clamp (low high x : Float) : Attempt Float :=
  if low ≤ high then
    let x := if x < low then low else x
    .ok (if high < x then high else x)
  else .error .panic

/-- The lesser of two numbers; one that is not a number does not count. -/
def lesser (a b : Float) : Float := if a != a then b else if b < a then b else a

/-- The greater of two numbers; one that is not a number does not count. -/
def greater (a b : Float) : Float := if a != a then b else if a < b then b else a

/-- Two numbers with the lesser one first; the others stay as they are. -/
def ordered (a b : Float) : Float × Float := if a ≤ b then (a, b) else (b, a)

/-- Whether a range has two ends and a finite width. -/
def isFiniteRange (low high : Float) : Bool :=
  Binary.isFinite low && Binary.isFinite high && Binary.isFinite (high - low)

/-- Whether a range is a single number for drawing purposes. -/
def isNarrow (low high : Float) : Bool := (high - low).abs ≤ Datum.tolerance

namespace MathOp

/-- The result before the magnitude limit. -/
def compute (op : MathOp) (left right : Float) (dice : Dice) : Attempt Float × Dice :=
  match op with
  | .add => (.ok (left + right), dice)
  | .subtract => (.ok (left - right), dice)
  | .multiply => (.ok (left * right), dice)
  | .divide =>
    (if right == 0 then .error (.undefined .division) else .ok (left / right), dice)
  | .modulo =>
    (if right == 0 then .error (.undefined .modulo) else .ok (Binary.remainder left right), dice)
  | .power =>
    (if left < 0 && !Binary.isWhole right then .error (.undefined (.power left right))
     else .ok (left.pow right), dice)
  | .sqrt => (if left < 0 then .error (.undefined (.squareRoot left)) else .ok left.sqrt, dice)
  | .abs => (.ok left.abs, dice)
  | .round => (.ok (Binary.round left), dice)
  | .floor => (.ok (Binary.floor left), dice)
  | .ceil => (.ok (Binary.ceil left), dice)
  | .min => (.ok (lesser left right), dice)
  | .max => (.ok (greater left right), dice)
  | .random =>
    let (low, high) := ordered left right
    if !isFiniteRange low high then (.error (.undefined (.randomRange left right)), dice)
    else if isNarrow low high then (.ok low, dice)
    else
      let (x, dice) := dice.between low high
      (.ok x, dice)

/-- A result kept within the magnitude limit. -/
def limited (op : MathOp) (limit x : Float) : Attempt Float :=
  if !Binary.isFinite x then .error (.undefined (.notFinite op))
  else if limit < x.abs then clamp (-limit) limit x
  else .ok x

/-- The result of an operation. -/
def apply (op : MathOp) (left right limit : Float) (dice : Dice) : Attempt Float × Dice :=
  match op.compute left right dice with
  | (.ok x, dice) => (op.limited limit x, dice)
  | (.error e, dice) => (.error e, dice)

end MathOp

/-- Whether a failure is the panic at bounds that contradict each other. -/
def Failure.isContradiction : Failure → Bool
  | .panic => true
  | _ => false

end Blockwork
