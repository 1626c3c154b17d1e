import Blockwork.Dice
import Blockwork.Effects
import Blockwork.Limits
import Blockwork.LoopSlots
import Blockwork.World

/-!
# The machine

Everything that outlives a single run: the world, the handler of side effects, the agenda of work
for later ticks, the slots of asynchronous loops, the raised signals and the dice.  Work for later
is kept with the context it was scheduled in.

A delayed body waits for the tick it is due; an asynchronous loop waits for the tick of its next
iteration.
-/

namespace Blockwork

/-- The state of a loop, with its count or list found when it started. -/
structure Cursor where
  /-- How it decides whether to go on. -/
  mode : LoopMode
  /-- Question asked before or after each iteration. -/
  condition : Option Condition := none
  /-- Elements to go through. -/
  items : Array Datum := #[]
  /-- Iterations to make. -/
  bound : Nat := 0
  /-- Iterations a loop without count or list may make. -/
  cap : Nat
  /-- Iterations made. -/
  iteration : Nat := 0
deriving Inhabited

/-- An asynchronous loop. -/
structure LoopTask where
  /-- Number and signal. -/
  handle : LoopHandle
  /-- The blocks of an iteration. -/
  body : List Block
  /-- How far it has come. -/
  cursor : Cursor
  /-- The context its iterations run in. -/
  context : Context
  /-- Ticks between iterations. -/
  interval : Nat
  /-- The tick of the next iteration. -/
  nextTick : Nat
deriving Inhabited

/-- Whose loop it is. -/
def LoopTask.actor (t : LoopTask) : ActorId := t.context.frame.actor

/-- Blocks that wait for their tick. -/
structure Delayed where
  /-- The tick. -/
  due : Nat
  /-- The blocks. -/
  body : List Block
  /-- The context they run in. -/
  context : Context
deriving Inhabited

/-- On whose behalf the blocks run. -/
def Delayed.actor (d : Delayed) : ActorId := d.context.frame.actor

/-- The tick counter and the work for later ticks. -/
structure Agenda where
  /-- The current tick. -/
  tick : Nat := 0
  /-- Asynchronous loops, in the order in which they wait. -/
  loops : List LoopTask := []
  /-- Delayed blocks, oldest first. -/
  delays : List Delayed := []
deriving Inhabited

namespace Agenda

/-- The last tick there is. -/
def lastTick : Nat := Nat.pow 2 64 - 1

/-- Goes to the next tick. -/
def advance (a : Agenda) : Agenda := { a with tick := a.tick + 1 }

/-- Adds a loop. -/
def addLoop (a : Agenda) (t : LoopTask) : Agenda := { a with loops := a.loops ++ [t] }

/-- Adds delayed blocks. -/
def addDelay (a : Agenda) (d : Delayed) : Agenda := { a with delays := a.delays ++ [d] }

/-- Takes out the delayed blocks that are due. -/
def takeDelays (a : Agenda) : List Delayed × Agenda :=
  let isDue (d : Delayed) : Bool := d.due ≤ a.tick
  (a.delays.filter isDue, { a with delays := a.delays.filter fun d => !isDue d })

/-- Takes out the loops that are due. -/
def takeLoops (a : Agenda) : List LoopTask × Agenda :=
  let isDue (t : LoopTask) : Bool := t.nextTick ≤ a.tick
  (a.loops.filter isDue, { a with loops := a.loops.filter fun t => !isDue t })

/-- Drops an actor's delayed blocks. -/
def dropDelays (a : Agenda) (actor : ActorId) : Agenda :=
  { a with delays := a.delays.filter fun d => d.actor != actor }

end Agenda

/-- What outlives a run. -/
structure Machine where
  /-- The world. -/
  world : World := {}
  /-- The handler of side effects. -/
  effects : Effects := .refusing
  /-- Work for later ticks. -/
  agenda : Agenda := {}
  /-- Asynchronous loops in progress. -/
  slots : LoopSlots := {}
  /-- Raised signals. -/
  signals : Signals := {}
  /-- The random source. -/
  dice : Dice := .ofSeed 0
  /-- The side effects up to the moment when a calculation first panicked, at limits that contradict
  themselves; nothing that happens afterwards has a meaning. -/
  contradiction : Option Effects := none
deriving Inhabited

namespace Machine

/-- Whether a calculation has panicked. -/
def contradicted (m : Machine) : Bool := m.contradiction.isSome

/-- Notes that a calculation panics. -/
def contradict (m : Machine) : Machine :=
  { m with contradiction := m.contradiction.orElse fun _ => some m.effects }

/-- Takes an actor's slot for a loop with a signal of its own. -/
def takeSlot (m : Machine) (actor : ActorId) : Attempt (LoopHandle × Machine) :=
  let (signal, signals) := m.signals.fresh
  (m.slots.register actor signal).map fun (handle, slots) =>
    (handle, { m with slots := slots, signals := signals })

/-- Stops an actor's loop; whether there was one. -/
def requestStop (m : Machine) (actor : ActorId) : Bool × Machine :=
  match m.slots.remove actor with
  | some (handle, slots) =>
    (true, { m with slots := slots, signals := m.signals.raise handle.signal })
  | none => (false, m)

/-- Raises the signals of an actor's loops and drops the actor's delayed blocks. -/
def cancelActor (m : Machine) (actor : ActorId) : Machine :=
  let own := m.agenda.loops.filter fun t => t.actor == actor
  { m with
    signals := own.foldl (fun s t => s.raise t.handle.signal) m.signals
    agenda := m.agenda.dropDelays actor }

end Machine

end Blockwork
