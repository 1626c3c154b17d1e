import Blockwork.Machine
import Blockwork.Operation.Arguments
import Blockwork.Operation.Conditions
import Blockwork.Operation.Targets
import Blockwork.Operation.TextWork
import Blockwork.Operation.Variables

/-!
# Running single blocks

A run reads a frame and changes a scope and the machine.  This module has the blocks that do not
contain others: changes of variables, calculations, text, messages, moves and side effects.  Each
works out its result first and writes a variable last, so one that fails has changed none.
-/

namespace Blockwork

namespace Scene

/-- What a variable block does to which variable. -/
def variableUpdate (s : Scene) (v : VariableStep) (dice : Dice) :
    Attempt (String × Update) × Dice :=
  match v.op with
  | none => (.error (.absent (.operation "variable")), dice)
  | some op =>
    let name := s.variableName v.name
    let current := s.context.get? name
    if name.isEmpty then (.error (.absent .variableName), dice)
    else
      let plain (u : Attempt Update) : Attempt (String × Update) × Dice := (u.map (name, ·), dice)
      let setTo (d : Attempt Datum) : Attempt Update := d.map Update.set
      match op with
      | .set => plain (setTo (s.require v.value "value"))
      | .add | .subtract | .multiply | .divide =>
        plain ((s.number v.value "value").map (op.arithmetic current))
      | .increment | .decrement => plain (.ok (op.arithmetic current 0))
      | .append =>
        plain (setTo ((s.require v.value "value").map fun d =>
          match current with
          | some (.list items) => .list (items ++ [d])
          | some old => .text (s.display old ++ s.display d)
          | none => .text (s.display d)))
      | .clear => plain (.ok .clear)
      | .copy =>
        plain (setTo (match v.value with
          | none => .error (.missing "source variable")
          | some source =>
            let from' := s.variableName source.raw
            match s.context.get? from' with
            | some d => .ok d
            | none => .error (.unknown (.variable_ from'))))
      | .randomNumber =>
        match s.number v.value "lower bound" with
        | .error e => (.error e, dice)
        | .ok low =>
          match s.number v.extra "upper bound" with
          | .error e => (.error e, dice)
          | .ok high =>
            let (x, dice) := dice.number low high
            (x.map fun x => (name, .set (.number x)), dice)
      | .randomChoice =>
        match s.require v.value "value" with
        | .error e => (.error e, dice)
        | .ok list =>
          let (d, dice) := dice.pick list
          (d.map fun d => (name, .set d), dice)
      | .toNumber => plain (.ok (.set (.number ((current.map Datum.asNumber).getD 0))))
      | .toText => plain (.ok (.set (.text ((current.map s.display).getD ""))))
      | .actorInfo =>
        plain (setTo (do
          let key ← s.text v.value "info key"
          let actors ← s.onlineActors (.onlineTarget "actor info")
          match actors with
          | a :: _ => a.info key
          | [] => throw (.unknown (.onlineTarget "actor info"))))

/-- The variable and the result of a calculation. -/
def calculation (s : Scene) (m : MathStep) (limit : Float) (dice : Dice) :
    Attempt (String × Float) × Dice :=
  let operands : Attempt (MathOp × Float × Float × String) := do
    let op ← match m.op with
      | some op => pure op
      | none => throw (.absent (.operation "math"))
    let left ← s.number m.left "left operand"
    let right ← if op.isBinary then s.number m.right "right operand" else pure 0
    let result := s.variableName m.result
    if result.isEmpty then throw (.absent (.result "math"))
    pure (op, left, right, result)
  match operands with
  | .error e => (.error e, dice)
  | .ok (op, left, right, result) =>
    let (x, dice) := op.apply left right limit dice
    (x.map (result, ·), dice)

/-- The variable and the result of a text operation. -/
def textResult (s : Scene) (t : TextStep) (limits : Limits) : Attempt (String × Datum) := do
  let op ← match t.op with
    | some op => pure op
    | none => throw (.absent (.operation "text"))
  let input ← s.text t.input "input"
  let argument := s.display (s.resolveOptional t.argument)
  let replacement := s.display (s.resolveOptional t.replacement)
  let result := s.variableName t.result
  if result.isEmpty then throw (.absent (.result "text"))
  pure (result, op.apply input argument replacement limits)

/-- The text of a message and whom it goes to. -/
def messageTo (s : Scene) (shown : Option Value) : Attempt (String × List Actor) := do
  let text ← s.text shown "message text"
  let actors ← s.onlineActors (.onlineTarget "message")
  pure (text, actors)

/-- The destination of a move and whom it takes there. -/
def moveTo (s : Scene) (place : Option Value) : Attempt (Location × List Actor) := do
  let l ← s.location place "location"
  let actors ← s.onlineActors (.onlineTarget "teleport")
  pure (l, actors)

/-- The value of an argument.  In quotes it is a template; otherwise it may be a number or a
variable that keeps its type. -/
def argument (s : Scene) : Argument → Datum
  | .quoted text => .text (s.substitute text)
  | .bare raw =>
    match Numeral.float? raw with
    | some x => .number x
    | none => s.resolve (.text raw)

/-- The value a return block hands back. -/
def returned (s : Scene) (v : Option Value) : Option Datum :=
  match s.resolveOptional v with
  | .nothing => none
  | d => some d

end Scene

/-- Moves actors, one after another. -/
def World.moveAll (w : World) (l : Location) : List Actor → Except Refusal World
  | [] => .ok w
  | a :: rest =>
    match w.move a.id l with
    | .ok w => w.moveAll l rest
    | .error e => .error e

/-- What a run changes. -/
structure RunState where
  /-- Variables and log. -/
  scope : Scope
  /-- Everything that outlives the run. -/
  machine : Machine

/-- A run. -/
abbrev Run := StateM RunState

namespace Run

/-- What values are resolved against. -/
def scene (f : Frame) : Run Scene := fun s => (⟨⟨f, s.scope⟩, s.machine.world⟩, s)

/-- Writes a variable. -/
def set (name : String) (d : Datum) : Run Unit := fun s =>
  ((), { s with scope := s.scope.set name d })

/-- Clears a variable. -/
def clear (name : String) : Run Unit := fun s => ((), { s with scope := s.scope.clear name })

/-- Changes variables and log. -/
def changeScope (f : Scope → Scope) : Run Unit := fun s => ((), { s with scope := f s.scope })

/-- Changes the machine. -/
def changeMachine (f : Machine → Machine) : Run Unit := fun s =>
  ((), { s with machine := f s.machine })

/-- Uses the dice. -/
def roll {α : Type} (f : Dice → α × Dice) : Run α := fun s =>
  let (a, dice) := f s.machine.dice
  (a, { s with machine := { s.machine with dice := dice } })

/-- Whether a signal has been raised. -/
def isRaised (signal : Signal) : Run Bool := fun s => (s.machine.signals.isRaised signal, s)

/-- Notes in the log that a block has run. -/
def record (f : Frame) (b : Block) (o : Outcome) : Run Unit := fun s =>
  ((), { s with scope := s.scope.record f.logLimit b o })

/-- The answer of a condition. -/
def evaluate (f : Frame) (c : Condition) : Run (Attempt Bool) := do
  let s ← scene f
  roll (s.evaluate c)

/-- Changes a variable. -/
def variableStep (f : Frame) (v : VariableStep) : Run Outcome := do
  let s ← scene f
  match ← roll (s.variableUpdate v) with
  | .error e => pure (.error e)
  | .ok (name, update) =>
    match update with
    | .set d => set name d
    | .clear => clear name
    | .keep => pure ()
    pure .success

/-- Calculates. -/
def mathStep (limits : Limits) (f : Frame) (m : MathStep) : Run Outcome := do
  let s ← scene f
  match ← roll (s.calculation m limits.magnitude) with
  | .error e =>
    if e.isContradiction then changeMachine Machine.contradict
    pure (.error e)
  | .ok (name, x) =>
    set name (.number x)
    pure .success

/-- Works on text. -/
def textStep (limits : Limits) (f : Frame) (t : TextStep) : Run Outcome := do
  let s ← scene f
  match s.textResult t limits with
  | .error e => pure (.error e)
  | .ok (name, d) =>
    set name d
    pure .success

/-- Sends a message. -/
def message (f : Frame) (shown : Option Value) : Run Outcome := do
  let s ← scene f
  match s.messageTo shown with
  | .error e => pure (.error e)
  | .ok (text, actors) =>
    changeMachine fun m =>
      { m with world := actors.foldl (fun w a => w.send a.id text) m.world }
    pure .success

/-- Moves the subject. -/
def teleport (f : Frame) (place : Option Value) : Run Outcome := do
  let s ← scene f
  match s.moveTo place with
  | .error e => pure (.error e)
  | .ok (l, actors) =>
    match s.world.moveAll l actors with
    | .error e => pure (.error (.world e))
    | .ok world =>
      changeMachine fun m => { m with world := world }
      pure .success

/-- Requests a side effect. -/
def sideEffect (f : Frame) (r : Request) : Run Outcome := do
  let s ← scene f
  let kind := Text.trim r.kind
  if kind.isEmpty then pure (.error (.absent .effectKind))
  else fun st =>
    let (result, effects) := st.machine.effects.perform f.actor kind (r.arguments.map s.resolve)
    let st := { st with machine := { st.machine with effects := effects } }
    match result with
    | .ok _ => (.success, st)
    | .error reason => (.error (.effect kind reason), st)

/-- Stops the actor's asynchronous loop, if there is one. -/
def stopLoop (f : Frame) : Run Outcome := do
  changeMachine fun m => (m.requestStop f.actor).2
  pure .success

/-- Hands a value back. -/
def return_ (f : Frame) (v : Option Value) : Run Outcome := do
  let s ← scene f
  pure (.return_ (s.returned v))

end Run

end Blockwork
