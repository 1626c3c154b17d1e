import Blockwork.Interpreter

/-!
# The interpreter with notes

A run shows what became of the variables but not what was read and written on the way.  This module
runs blocks in the same way and takes notes: the context each time a block looks at variables, and
the name each time a variable is written, cleared, bound as a parameter or taken over from a call.

Everything that is not about variables is passed on to the run it stands for (`Traced.quiet`,
`Traced.looking`), so what is spelled out here is the shape of the interpreter: its loops, its tree
of blocks and its calls.  What the notes mean is stated in `Blockwork.Proofs.Trace.Faithful`, and that
they change nothing is proved in `Blockwork.Proofs.Trace.Runs`.
-/

namespace Blockwork

/-- Something that happened to variables in a run. -/
inductive Note where
  /-- A block looked at variables in a context. -/
  | read (c : Context)
  /-- A variable was written. -/
  | set (name : String)
  /-- A variable was cleared. -/
  | clear (name : String)
  /-- A parameter was bound in the scope of a call. -/
  | bind (name : String)
  /-- A variable was taken over from a finished call. -/
  | merge (name : String)

namespace Note

/-- The variable that is changed in the scope of the block that makes the note. -/
def changed? : Note → Option String
  | .set name | .clear name | .merge name => some name
  | .read _ | .bind _ => none

/-- The variable that may read differently afterwards, in this scope or that of a call. -/
def touched? : Note → Option String
  | .set name | .clear name | .bind name | .merge name => some name
  | .read _ => none

/-- The variables changed in some notes. -/
def changed (notes : List Note) : List String := notes.filterMap changed?

/-- The variables touched in some notes. -/
def touched (notes : List Note) : List String := notes.filterMap touched?

end Note

/-- A run that takes notes, the latest last. -/
abbrev Traced := StateT (List Note) Run

namespace Traced

/-- Does what a run does, without a note. -/
def quiet {α : Type} (r : Run α) : Traced α := fun notes => do
  let a ← r
  pure (a, notes)

/-- Takes notes. -/
def jot (more : List Note) : Traced Unit := fun notes => pure ((), notes ++ more)

/-- What values are resolved against. -/
def scene (f : Frame) : Traced Scene := do
  let s ← quiet (Run.scene f)
  jot [.read s.context]
  pure s

/-- Writes a variable. -/
def set (name : String) (d : Datum) : Traced Unit := do
  quiet (Run.set name d)
  jot [.set name]

/-- Clears a variable. -/
def clear (name : String) : Traced Unit := do
  quiet (Run.clear name)
  jot [.clear name]

/-- Does what a run does that looks at variables and writes none. -/
def looking {α : Type} (f : Frame) (r : Run α) : Traced α := do
  let _ ← scene f
  quiet r

/-- Changes a variable. -/
def variableStep (f : Frame) (v : VariableStep) : Traced Outcome := do
  let s ← scene f
  match ← quiet (Run.roll (s.variableUpdate v)) with
  | .error e => pure (.error e)
  | .ok (name, update) =>
    match update with
    | .set d => set name d
    | .clear => clear name
    | .keep => pure ()
    pure .success

/-- Calculates. -/
def mathStep (limits : Limits) (f : Frame) (m : MathStep) : Traced Outcome := do
  let s ← scene f
  match ← quiet (Run.roll (s.calculation m limits.magnitude)) with
  | .error e =>
    if e.isContradiction then quiet (Run.changeMachine Machine.contradict)
    pure (.error e)
  | .ok (name, x) =>
    set name (.number x)
    pure .success

/-- Works on text. -/
def textStep (limits : Limits) (f : Frame) (t : TextStep) : Traced Outcome := do
  let s ← scene f
  match s.textResult t limits with
  | .error e => pure (.error e)
  | .ok (name, d) =>
    set name d
    pure .success

/-! ## Loops -/

/-- The answer to a loop's question. -/
def ask (f : Frame) (c : Cursor) : Traced (Attempt Bool) :=
  match c.condition with
  | some condition => looking f (Run.evaluate f condition)
  | none => pure (.ok false)

/-- The end of a loop that has reached its limit. -/
def close (f : Frame) (c : Cursor) : Traced Outcome :=
  match c.mode with
  | .times | .forEach => pure .success
  | .while_ => do
    match ← ask f c with
    | .ok true => pure (Loop.overrun c)
    | .ok false => pure .success
    | .error e => pure (.error e)
  | .until_ | .forever => pure (Loop.overrun c)

/-- Publishes the element of an iteration over a list. -/
def publishItem (c : Cursor) : Traced Unit :=
  match c.mode, c.items[c.iteration]? with
  | .forEach, some d => set "_loop_value" d
  | _, _ => pure ()

/-- Publishes the loop variables of an iteration. -/
def publish (c : Cursor) : Traced Unit := do
  publishItem c
  set "_loop_index" (.number (Binary.ofNat c.iteration))
  set "_loop_count" (.number (Binary.ofNat c.iteration + 1))

/-- What follows an iteration that was not left early. -/
def proceed (f : Frame) (c : Cursor) : Traced Step :=
  match c.mode with
  | .until_ => do
    match ← ask f c.next with
    | .ok true => pure (.done .success)
    | .ok false => pure (.next c.next)
    | .error e => pure (.done (.error e))
  | _ => pure (.next c.next)

/-- The iteration itself, and what follows it. -/
def enterLoop (f : Frame) (body : Traced Outcome) (c : Cursor) : Traced Step := do
  publish c
  match ← body with
  | .success | .continue_ => proceed f c
  | .break_ => pure (.done .success)
  | o => pure (.done o)

/-- One iteration of a loop below its limit. -/
def step (f : Frame) (body : Traced Outcome) (c : Cursor) : Traced Step :=
  match c.mode with
  | .while_ => do
    match ← ask f c with
    | .ok true => enterLoop f body c
    | .ok false => pure (.done .success)
    | .error e => pure (.done (.error e))
  | _ => enterLoop f body c

/-- One iteration, or the end of a loop at its limit. -/
def iterate (f : Frame) (body : Traced Outcome) (c : Cursor) : Traced Step :=
  match c.room with
  | 0 => do pure (.done (← close f c))
  | _ + 1 => step f body c

/-- Runs a loop to its end. -/
def cycle (f : Frame) (body : Traced Outcome) : Nat → Cursor → Traced Outcome
  | 0, c => do
    if ← quiet (Run.isRaised f.cancel) then pure .success else close f c
  | n + 1, c => do
    if ← quiet (Run.isRaised f.cancel) then pure .success
    else
      match ← step f body c with
      | .done o => pure o
      | .next c => cycle f body n c

/-- Runs or hands over a loop. -/
def repeat_ (limits : Limits) (f : Frame) (r : Repeat) (body : List Block) (run : Traced Outcome) :
    Traced Outcome := do
  let s ← scene f
  match Cursor.start s limits r with
  | .error e => pure (.error e)
  | .ok c =>
    if r.isAsync then quiet (Loop.spread f r.interval body c) else cycle f run c.room c

/-! ## Trees of blocks and calls -/

/-- How a call block runs. -/
abbrev Caller := Frame → Call → Traced Outcome

/-- Runs a body later, or at once if the wait is less than a tick. -/
def delay (f : Frame) (ticks : Option Value) (body : List Block) (run : Traced Outcome) :
    Traced Outcome := do
  let s ← scene f
  match s.number ticks "ticks" with
  | .error e => pure (.error e)
  | .ok wait =>
    if 0 < Interpreter.wholeTicks wait then quiet (Interpreter.postpone f wait body) else run

/-- Does what an instruction says. -/
def perform (limits : Limits) (call : Caller) (f : Frame) (previous : Option Bool)
    (children : List Block) (inner : Frame → Traced Outcome) :
    Instruction → Traced (Outcome × Option Bool)
  | .event _ | .function _ => pure (.success, none)
  | .if_ condition => do
    match ← looking f (Run.evaluate f condition) with
    | .ok true => do pure (← inner f, some true)
    | .ok false => pure (.success, some false)
    | .error e => pure (.error e, none)
  | .else_ =>
    match previous with
    | some false => do pure (← inner f, none)
    | _ => pure (.success, none)
  | .repeat_ r => do pure (← repeat_ limits f r children (inner f), none)
  | .target t => do
    let s ← scene f
    match ← quiet (Run.roll (s.findTarget t)) with
    | .error e => pure (.error e, none)
    | .ok target => do pure (← inner { f with target := target }, none)
  | .callFunction c => do pure (← call f c, none)
  | .variable_ v => do pure (← variableStep f v, none)
  | .math m => do pure (← mathStep limits f m, none)
  | .text t => do pure (← textStep limits f t, none)
  | .message shown => do pure (← looking f (Run.message f shown), none)
  | .teleport place => do pure (← looking f (Run.teleport f place), none)
  | .sideEffect r => do pure (← looking f (Run.sideEffect f r), none)
  | .delay ticks => do pure (← delay f ticks children (inner f), none)
  | .stopLoop => do pure (← quiet (Run.stopLoop f), none)
  | .break_ => pure (.break_, none)
  | .continue_ => pure (.continue_, none)
  | .return_ value => do pure (← looking f (Run.return_ f value), none)

mutual

/-- Runs a block, given whether the condition just before it held. -/
def block (limits : Limits) (call : Caller) (f : Frame) (previous : Option Bool) :
    Block → Traced (Outcome × Option Bool)
  | ⟨id, instruction, children⟩ => do
    let result ← perform limits call f previous children
      (fun f => blocks limits call f none children) instruction
    quiet (Run.record f ⟨id, instruction, children⟩ result.1)
    pure result

/-- Runs siblings in order until one does not succeed. -/
def blocks (limits : Limits) (call : Caller) (f : Frame) (previous : Option Bool) :
    List Block → Traced Outcome
  | [] => pure .success
  | b :: rest => do
    let (outcome, held) ← block limits call f previous b
    if outcome.isSuccess then blocks limits call f held rest else pure outcome

end

/-- The variables that a caller takes over from a finished call. -/
def merged (caller callee : Context) : List String :=
  caller.visibleNames.filter fun name =>
    match callee.get? name, caller.get? name with
    | some d, some old => !(old == d)
    | _, _ => true

/-- Writes the value that a call hands back, if one is wanted. -/
def deliver (f : Frame) (c : Call) (o : Outcome) : Traced Unit :=
  match Interpreter.wantedResult c with
  | none => pure ()
  | some raw => do
    let s ← scene f
    match o with
    | .return_ (some d) => set (s.variableName raw) d
    | _ => clear (s.variableName raw)

/-- Takes over from a finished call what its variables have become. -/
def takeOver (caller : Context) (inner : Frame) : Traced Unit := do
  let scope ← quiet (fun st => (st.scope, st))
  quiet (Run.changeScope fun scope => (caller.mergeBack ⟨inner, scope⟩).scope)
  jot ((merged caller ⟨inner, scope⟩).map .merge)

/-- Goes back to the caller when a function's body has ended. -/
def leave (f : Frame) (c : Call) (caller : Context) (inner : Frame) : Outcome → Traced Outcome
  | .error e => do
    quiet (Run.changeScope fun _ => caller.scope)
    pure (.error e)
  | o => do
    takeOver caller inner
    deliver f c o
    pure .success

/-- Calls a function. -/
def enter (run : Frame → List Block → Traced Outcome) (f : Frame) (c : Call) :
    Traced Outcome := do
  let s ← scene f
  match Interpreter.callee s c with
  | .error e => pure (.error e)
  | .ok (head, b, values) => do
    let inner := Interpreter.bindParameters s.context head.parameters values
    quiet (Run.changeScope fun _ => inner.scope)
    jot (head.parameters.map .bind)
    let outcome ← run inner.frame b.children
    leave f c s.context inner.frame outcome

/-- Runs a call block when the given number of calls may still be nested. -/
def call (limits : Limits) : Nat → Caller
  | 0, _, c =>
    pure (.error (.excess (.callDepth limits.maxCallDepth (Text.trim c.function))))
  | n + 1, f, c => enter (fun f body => blocks limits (call limits n) f none body) f c

/-- Runs siblings. -/
def run (limits : Limits) (f : Frame) (body : List Block) : Traced Outcome :=
  blocks limits (call limits (Interpreter.callsLeft limits f)) f none body

end Traced

end Blockwork
