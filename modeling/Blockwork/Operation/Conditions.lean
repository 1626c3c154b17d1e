import Blockwork.Operation.Arithmetic
import Blockwork.Resolve
import Blockwork.Text.Case

/-!
# Conditions

A condition compares two operands, asks about the subject or rolls the dice.  Values that are both
numbers are compared as numbers, anything else as text in small letters.
-/

namespace Blockwork

/-- How two numbers compare; one that is not a number is equal to any other. -/
def compareNumbers (a b : Float) : Ordering :=
  if a < b then .lt else if b < a then .gt else .eq

/-- How two texts compare, by their characters in small letters. -/
def compareTexts (s t : String) : Ordering :=
  let s := Text.lower s
  let t := Text.lower t
  if s < t then .lt else if t < s then .gt else .eq

/-- How two values compare. -/
def Datum.compare (a b : Datum) : Ordering :=
  match a.number?, b.number? with
  | some x, some y => compareNumbers x y
  | _, _ => compareTexts a.asText b.asText

namespace Scene

/-- Whether the subject is still there. -/
def targetExists (s : Scene) : Bool :=
  match s.context.frame.target with
  | .nobody => false
  | .actor id => (s.world.actor? id).isSome
  | .actors ids => !ids.isEmpty
  | .entity id => (s.world.entity? id).isSome
  | .entities ids => !ids.isEmpty
  | .value d => !d.isNothing

/-- The name of the variable that an operand is about. -/
def variableOperand (s : Scene) : Option Value → Attempt String
  | some (.variable_ name) => .ok (s.variableName name)
  | some v => .ok (s.variableName v.raw)
  | none => .error (.missing "variable name")

/-- The answer of a check, before it is turned around. -/
def answer (s : Scene) (check : Check) (c : Condition) (dice : Dice) : Attempt Bool × Dice :=
  let left := s.require c.left "left operand"
  let right := s.require c.right "right operand"
  let both {α : Type} (f : Datum → Datum → α) : Attempt α := do
    let a ← left
    let b ← right
    pure (f a b)
  match check with
  | .equals => (both fun a b => a.equals b, dice)
  | .notEquals => (both fun a b => !a.equals b, dice)
  | .greaterThan => (both fun a b => a.compare b == .gt, dice)
  | .greaterOrEqual => (both fun a b => a.compare b != .lt, dice)
  | .lessThan => (both fun a b => a.compare b == .lt, dice)
  | .lessOrEqual => (both fun a b => a.compare b != .gt, dice)
  | .contains =>
    (both fun a b => Text.contains (Text.lower (s.display a)) (Text.lower (s.display b)), dice)
  | .startsWith =>
    (both fun a b => Text.startsWith (Text.lower (s.display a)) (Text.lower (s.display b)), dice)
  | .variableExists => ((s.variableOperand c.left).map s.context.contains, dice)
  | .targetExists => (.ok s.targetExists, dice)
  | .targetInWorld =>
    (do
      let world := s.display (← left)
      let actors ← s.onlineActors .conditionTarget
      pure (actors.all fun a => Text.sameLetters a.location.world world), dice)
  | .healthAbove =>
    (do
      let threshold ← s.number c.left "health threshold"
      let actors ← s.onlineActors .conditionTarget
      pure (actors.all fun a => threshold < a.health), dice)
  | .chance =>
    match s.number c.left "chance" with
    | .ok percent =>
      let (u, dice) := dice.unit
      (.ok (u * 100 < percent), dice)
    | .error e => (.error e, dice)

/-- The answer of a condition. -/
def evaluate (s : Scene) (c : Condition) (dice : Dice) : Attempt Bool × Dice :=
  match c.check with
  | none => (.error (.absent .check), dice)
  | some check =>
    let (passed, dice) := s.answer check c dice
    (passed.map fun b => b != c.invert, dice)

end Scene

end Blockwork
