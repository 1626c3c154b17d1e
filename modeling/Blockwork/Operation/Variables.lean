import Blockwork.Operation.Arithmetic
import Blockwork.World

/-!
# Changes to variables

The parts of a variable block that need no context: arithmetic on the current value, random draws
and the properties of actors.
-/

namespace Blockwork

/-- What becomes of a variable. -/
inductive Update where
  /-- It gets a value. -/
  | set (d : Datum)
  /-- It loses its value. -/
  | clear
  /-- It stays as it is. -/
  | keep

namespace VariableOp

/-- Arithmetic on the current value, which counts as zero if it is no number.  A division by zero
keeps the variable. -/
def arithmetic (op : VariableOp) (current : Option Datum) (operand : Float) : Update :=
  let x := (current.bind Datum.number?).getD 0
  match op with
  | .add => .set (.number (x + operand))
  | .subtract => .set (.number (x - operand))
  | .multiply => .set (.number (x * operand))
  | .divide => if operand == 0 then .keep else .set (.number (x / operand))
  | .increment => .set (.number (x + 1))
  | .decrement => .set (.number (x - 1))
  | _ => .keep

end VariableOp

namespace Dice

/-- The least integer of sixty-four bits as a number. -/
def leastWord : Float := Binary.ofInt (-(Nat.pow 2 63 : Nat))

/-- The number just above the greatest integer of sixty-four bits. -/
def pastWord : Float := Binary.ofInt (Nat.pow 2 63 : Nat)

/-- A random number between two bounds, both included; whole if both bounds are. -/
def number (a b : Float) (dice : Dice) : Attempt Float × Dice :=
  let (low, high) := ordered a b
  if !isFiniteRange low high then (.error (.undefined (.randomRange a b)), dice)
  else if Binary.isWhole low && Binary.isWhole high && leastWord ≤ low && high < pastWord then
    let first := Binary.saturate (-(Nat.pow 2 63)) (Nat.pow 2 63 - 1) low
    let last := Binary.saturate (-(Nat.pow 2 63)) (Nat.pow 2 63 - 1) high
    let (n, dice) := dice.below ((last - first).toNat + 1)
    (.ok (Binary.ofInt (first + n)), dice)
  else if isNarrow low high then (.ok low, dice)
  else
    let (x, dice) := dice.between low high
    (.ok x, dice)

/-- A random element of a list value. -/
def pick (list : Datum) (dice : Dice) : Attempt Datum × Dice :=
  match dice.choose list.toList with
  | (some d, dice) => (.ok d, dice)
  | (none, dice) => (.error (.unknown .choice), dice)

end Dice

/-- A property of an actor. -/
def Actor.info (a : Actor) (key : String) : Attempt Datum :=
  let key := Text.lowerAscii (Text.trim key)
  if key = "name" then .ok (.text a.name)
  else if key = "health" then .ok (.number a.health)
  else if key = "food" || key = "hunger" then .ok (.number (Binary.ofNat a.food))
  else if key = "level" then .ok (.number (Binary.ofNat a.level))
  else if key = "x" then .ok (.number a.location.x)
  else if key = "y" then .ok (.number a.location.y)
  else if key = "z" then .ok (.number a.location.z)
  else if key = "coordinates" || key = "location" then .ok (.location a.location)
  else if key = "world" then .ok (.text a.location.world)
  else .error (.unknown (.actorInfo key))

end Blockwork
