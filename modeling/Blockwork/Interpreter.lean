import Blockwork.Loop

/-!
# Running blocks

Every block has an outcome.  Siblings run in order until one does not succeed, and that outcome is
handed up: loops absorb leaving and continuing, calls absorb returning, and nothing absorbs a
failure.

Running is a total function without any bound of its own.  `Interpreter.blocks` recurses on the
block tree, a loop on the iterations below its limit, and `Interpreter.call` on the calls that may
still be nested: a function body is not part of the tree that calls it, but is run with one call
fewer left.
-/

namespace Blockwork

namespace Interpreter

/-- How a call block runs. -/
abbrev Caller := Frame → Call → Run Outcome

/-- The whole ticks in a wait. -/
def wholeTicks (wait : Float) : Nat := (Binary.saturate 0 Agenda.lastTick wait).toNat

/-- Puts a body off for a number of ticks. -/
def postpone (f : Frame) (wait : Float) (body : List Block) : Run Outcome := fun st =>
  let agenda := st.machine.agenda
  let due := min (agenda.tick + wholeTicks wait) Agenda.lastTick
  let machine := { st.machine with agenda := agenda.addDelay ⟨due, body, ⟨f, st.scope⟩⟩ }
  (.success, { st with machine := machine })

/-- Runs a body later, or at once if the wait is less than a tick. -/
def delay (f : Frame) (ticks : Option Value) (body : List Block) (run : Run Outcome) :
    Run Outcome := do
  let s ← Run.scene f
  match s.number ticks "ticks" with
  | .error e => pure (.error e)
  | .ok wait => if 0 < wholeTicks wait then postpone f wait body else run

/-- Does what an instruction says, given whether the condition just before it held; `inner` runs the
children in a frame.  With the outcome comes whether the instruction's own condition held, if it has
one. -/
def perform (limits : Limits) (call : Caller) (f : Frame) (previous : Option Bool)
    (children : List Block) (inner : Frame → Run Outcome) :
    Instruction → Run (Outcome × Option Bool)
  | .event _ | .function _ => pure (.success, none)
  | .if_ condition => do
    match ← Run.evaluate f condition with
    | .ok true => do pure (← inner f, some true)
    | .ok false => pure (.success, some false)
    | .error e => pure (.error e, none)
  | .else_ =>
    match previous with
    | some false => do pure (← inner f, none)
    | _ => pure (.success, none)
  | .repeat_ r => do pure (← Loop.repeat_ limits f r children (inner f), none)
  | .target t => do
    let s ← Run.scene f
    match ← Run.roll (s.findTarget t) with
    | .error e => pure (.error e, none)
    | .ok target => do pure (← inner { f with target := target }, none)
  | .callFunction c => do pure (← call f c, none)
  | .variable_ v => do pure (← Run.variableStep f v, none)
  | .math m => do pure (← Run.mathStep limits f m, none)
  | .text t => do pure (← Run.textStep limits f t, none)
  | .message shown => do pure (← Run.message f shown, none)
  | .teleport place => do pure (← Run.teleport f place, none)
  | .sideEffect r => do pure (← Run.sideEffect f r, none)
  | .delay ticks => do pure (← delay f ticks children (inner f), none)
  | .stopLoop => do pure (← Run.stopLoop f, none)
  | .break_ => pure (.break_, none)
  | .continue_ => pure (.continue_, none)
  | .return_ value => do pure (← Run.return_ f value, none)

mutual

/-- Runs a block, given whether the condition just before it held.  With the outcome comes whether
the block's own condition held, if it has one. -/
def block (limits : Limits) (call : Caller) (f : Frame) (previous : Option Bool) :
    Block → Run (Outcome × Option Bool)
  | ⟨id, instruction, children⟩ => do
    let result ← perform limits call f previous children
      (fun f => blocks limits call f none children) instruction
    Run.record f ⟨id, instruction, children⟩ result.1
    pure result

/-- Runs siblings in order until one does not succeed. -/
def blocks (limits : Limits) (call : Caller) (f : Frame) (previous : Option Bool) :
    List Block → Run Outcome
  | [] => pure .success
  | b :: rest => do
    let (outcome, held) ← block limits call f previous b
    if outcome.isSuccess then blocks limits call f held rest else pure outcome

end

/-- The function that a call names, and the values of its arguments. -/
def callee (s : Scene) (c : Call) : Attempt (Function × Block × List Datum) :=
  let name := Text.trim c.function
  match s.context.frame.functions.get? name with
  | none => .error (.unknown (.function name))
  | some b =>
    match b.instruction with
    | .function head =>
      let arguments := Argument.split c.arguments
      if arguments.length = head.parameters.length then
        .ok (head, b, arguments.map s.argument)
      else .error (.conflict (.argumentCount name head.parameters.length arguments.length))
    | _ => .error (.conflict (.notFunction name))

/-- The variable for the returned value, if one is wanted. -/
def wantedResult (c : Call) : Option String := c.result.filter fun r => !Text.isBlankText r

/-- The context that a function's body runs in, with its parameters bound. -/
def bindParameters (c : Context) (parameters : List String) (values : List Datum) : Context :=
  (parameters.zip values).foldl (fun c p => c.set p.1 p.2) c.forCall

/-- Writes the value that a call hands back, if one is wanted. -/
def deliver (f : Frame) (c : Call) (o : Outcome) : Run Unit :=
  match wantedResult c with
  | none => pure ()
  | some raw => do
    let s ← Run.scene f
    match o with
    | .return_ (some d) => Run.set (s.variableName raw) d
    | _ => Run.clear (s.variableName raw)

/-- Goes back to the caller when a function's body has ended.  A call that fails leaves the caller's
scope as it was. -/
def leave (f : Frame) (c : Call) (caller : Context) (inner : Frame) : Outcome → Run Outcome
  | .error e => do
    Run.changeScope fun _ => caller.scope
    pure (.error e)
  | o => do
    Run.changeScope fun scope => (caller.mergeBack ⟨inner, scope⟩).scope
    deliver f c o
    pure .success

/-- Calls a function; `run` runs its body. -/
def enter (run : Frame → List Block → Run Outcome) (f : Frame) (c : Call) : Run Outcome := do
  let s ← Run.scene f
  match callee s c with
  | .error e => pure (.error e)
  | .ok (head, b, values) => do
    let inner := bindParameters s.context head.parameters values
    Run.changeScope fun _ => inner.scope
    let outcome ← run inner.frame b.children
    leave f c s.context inner.frame outcome

/-- Runs a call block when the given number of calls may still be nested. -/
def call (limits : Limits) : Nat → Caller
  | 0, _, c =>
    pure (.error (.excess (.callDepth limits.maxCallDepth (Text.trim c.function))))
  | n + 1, f, c => enter (fun f body => blocks limits (call limits n) f none body) f c

/-- How many calls may still be nested. -/
def callsLeft (limits : Limits) (f : Frame) : Nat := limits.maxCallDepth - f.callDepth

/-- Runs siblings. -/
def run (limits : Limits) (f : Frame) (body : List Block) : Run Outcome :=
  blocks limits (call limits (callsLeft limits f)) f none body

/-- Runs one block by itself. -/
def runOne (limits : Limits) (f : Frame) (b : Block) : Run Outcome := do
  let (outcome, _) ← block limits (call limits (callsLeft limits f)) f none b
  pure outcome

end Interpreter

namespace Context

/-- Lets a run change a context and the machine. -/
def exec (c : Context) (m : Machine) (run : Frame → Run Outcome) : Outcome × Context × Machine :=
  let (o, s) := (run c.frame).run ⟨c.scope, m⟩
  (o, ⟨c.frame, s.scope⟩, s.machine)

/-- Runs siblings in a context. -/
def runBlocks (c : Context) (m : Machine) (limits : Limits) (body : List Block) :
    Outcome × Context × Machine :=
  c.exec m fun f => Interpreter.run limits f body

/-- Runs one block in a context. -/
def runBlock (c : Context) (m : Machine) (limits : Limits) (b : Block) :
    Outcome × Context × Machine :=
  c.exec m fun f => Interpreter.runOne limits f b

/-- Runs the body of a line in a context.  A line that is not enabled does nothing. -/
def runLine (c : Context) (m : Machine) (limits : Limits) (l : Line) :
    Outcome × Context × Machine :=
  if l.enabled then
    let c := { c with frame := { c.frame with line := l.name } }
    let (o, c, m) := c.runBlocks m limits l.body
    (o.settled, c, m)
  else (.success, c, m)

end Context

/-- Runs delayed blocks. -/
def Delayed.run (d : Delayed) (m : Machine) (limits : Limits) : Outcome × Delayed × Machine :=
  let (o, c, m) := d.context.runBlocks m limits d.body
  (o.settled, { d with context := c }, m)

/-- What polling a loop gave. -/
inductive Poll where
  /-- It waits for its next iteration. -/
  | pending
  /-- It is over. -/
  | finished (o : Outcome)

namespace LoopTask

/-- Ends a loop and frees its slot. -/
def finish (t : LoopTask) (m : Machine) (o : Outcome) : Poll × LoopTask × Machine :=
  (.finished o, t, { m with slots := m.slots.release t.actor t.handle.id })

/-- Runs at most one iteration.  A loop whose signal is raised or whose actor is gone ends. -/
def poll (t : LoopTask) (m : Machine) (limits : Limits) : Poll × LoopTask × Machine :=
  if m.signals.isRaised t.handle.signal then t.finish m .success
  else if (m.world.actor? t.actor).isNone then t.finish m .success
  else
    let f := t.context.frame
    let (step, s) :=
      (Loop.iterate f (Interpreter.run limits f t.body) t.cursor).run ⟨t.context.scope, m⟩
    let t := { t with context := ⟨f, s.scope⟩ }
    match step with
    | .next c =>
      let t := { t with cursor := c, nextTick := s.machine.agenda.tick + t.interval }
      (.pending, t, s.machine)
    | .done o => t.finish s.machine o.settled

end LoopTask

end Blockwork
