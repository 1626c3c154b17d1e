import Blockwork.Run

/-!
# Loops

A loop finds its count or its list when it starts, so nothing its body does changes them.  Before an
iteration it decides whether to enter the body and publishes the loop variables; after it, an
`UNTIL` loop asks its question.

Every loop has a *limit*: its count, the length of its list, or the cap on iterations.  Below the
limit an iteration may start; at the limit the loop ends, with a failure if it is one that has no
end of its own.  `Loop.cycle` runs a loop to its end by recursion on the iterations that are left
below the limit.
-/

namespace Blockwork

namespace Cursor

/-- The cap on the iterations of a loop. -/
def capOf (limits : Limits) (r : Repeat) : Nat :=
  match r.maxIterations with
  | some n => n.toNat
  | none => limits.maxIterations

/-- A loop at its start. -/
def start (s : Scene) (limits : Limits) (r : Repeat) : Attempt Cursor :=
  let cap := capOf limits r
  match r.mode with
  | none => .error (.absent .loopMode)
  | some .times =>
    (s.number r.count "loop count").map fun n =>
      { mode := .times, bound := (Binary.saturate 0 cap n).toNat, cap }
  | some .forEach =>
    (s.require r.list "loop list").map fun d =>
      { mode := .forEach, items := (d.toList.take cap).toArray, cap }
  | some .forever => .ok { mode := .forever, cap }
  | some mode =>
    match r.condition with
    | some c => .ok { mode, condition := some c, cap }
    | none => .error (.absent (.loopCondition mode))

/-- How many iterations may start. -/
def limit (c : Cursor) : Nat :=
  match c.mode with
  | .times => c.bound
  | .forEach => c.items.size
  | _ => c.cap

/-- How many iterations may still start. -/
def room (c : Cursor) : Nat := c.limit - c.iteration

/-- The loop one iteration further. -/
def next (c : Cursor) : Cursor := { c with iteration := c.iteration + 1 }

end Cursor

/-- What follows an iteration. -/
inductive Step where
  /-- Another one. -/
  | next (c : Cursor)
  /-- The end of the loop. -/
  | done (o : Outcome)

namespace Loop

/-- The answer to the loop's question; without one it is no. -/
def ask (f : Frame) (c : Cursor) : Run (Attempt Bool) :=
  match c.condition with
  | some condition => Run.evaluate f condition
  | none => pure (.ok false)

/-- The failure of a loop that does not end by itself. -/
def overrun (c : Cursor) : Outcome := .error (.excess (.iterations c.mode c.cap))

/-- The end of a loop that has reached its limit. -/
def close (f : Frame) (c : Cursor) : Run Outcome :=
  match c.mode with
  | .times | .forEach => pure .success
  | .while_ => do
    match ← ask f c with
    | .ok true => pure (overrun c)
    | .ok false => pure .success
    | .error e => pure (.error e)
  | .until_ | .forever => pure (overrun c)

/-- Publishes the element of an iteration over a list. -/
def publishItem (c : Cursor) : Run Unit :=
  match c.mode, c.items[c.iteration]? with
  | .forEach, some d => Run.set "_loop_value" d
  | _, _ => pure ()

/-- Publishes the loop variables of an iteration. -/
def publish (c : Cursor) : Run Unit := do
  publishItem c
  Run.set "_loop_index" (.number (Binary.ofNat c.iteration))
  Run.set "_loop_count" (.number (Binary.ofNat c.iteration + 1))

/-- What follows an iteration that was not left early. -/
def proceed (f : Frame) (c : Cursor) : Run Step :=
  match c.mode with
  | .until_ => do
    match ← ask f c.next with
    | .ok true => pure (.done .success)
    | .ok false => pure (.next c.next)
    | .error e => pure (.done (.error e))
  | _ => pure (.next c.next)

/-- The iteration itself, and what follows it. -/
def enter (f : Frame) (body : Run Outcome) (c : Cursor) : Run Step := do
  publish c
  match ← body with
  | .success | .continue_ => proceed f c
  | .break_ => pure (.done .success)
  | o => pure (.done o)

/-- One iteration of a loop below its limit. -/
def step (f : Frame) (body : Run Outcome) (c : Cursor) : Run Step :=
  match c.mode with
  | .while_ => do
    match ← ask f c with
    | .ok true => enter f body c
    | .ok false => pure (.done .success)
    | .error e => pure (.done (.error e))
  | _ => enter f body c

/-- One iteration, or the end of a loop at its limit. -/
def iterate (f : Frame) (body : Run Outcome) (c : Cursor) : Run Step :=
  match c.room with
  | 0 => do pure (.done (← close f c))
  | _ + 1 => step f body c

/-- Runs a loop to its end, with the given number of iterations left below its limit.  A raised
signal ends it before the next iteration. -/
def cycle (f : Frame) (body : Run Outcome) : Nat → Cursor → Run Outcome
  | 0, c => do
    if ← Run.isRaised f.cancel then pure .success else close f c
  | n + 1, c => do
    if ← Run.isRaised f.cancel then pure .success
    else
      match ← step f body c with
      | .done o => pure o
      | .next c => cycle f body n c

/-- Hands a loop over to the agenda; its first iteration is on the next tick. -/
def spread (f : Frame) (interval : UInt32) (body : List Block) (c : Cursor) : Run Outcome := fun st =>
  match st.machine.takeSlot f.actor with
  | .error e => (.error e, st)
  | .ok (handle, machine) =>
    let task : LoopTask := {
      handle
      body
      cursor := c
      context := ⟨{ f with cancel := handle.signal }, st.scope⟩
      interval := max interval.toNat 1
      nextTick := machine.agenda.tick + 1 }
    (.success, { st with machine := { machine with agenda := machine.agenda.addLoop task } })

/-- Runs or hands over a loop; `run` runs its body once. -/
def repeat_ (limits : Limits) (f : Frame) (r : Repeat) (body : List Block) (run : Run Outcome) :
    Run Outcome := do
  let s ← Run.scene f
  match Cursor.start s limits r with
  | .error e => pure (.error e)
  | .ok c => if r.isAsync then spread f r.interval body c else cycle f run c.room c

end Loop

end Blockwork
