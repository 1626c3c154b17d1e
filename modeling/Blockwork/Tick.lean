import Blockwork.Interpreter

/-!
# Ticks

On a tick the delayed blocks that are due run first, and then every loop that is due makes one
iteration.  What is due is settled beforehand: work that is put off while others run waits for a later
tick.  A loop that goes on is put back behind the loops that wait.
-/

namespace Blockwork

/-- A unit of work done on a tick. -/
inductive Work where
  /-- Delayed blocks, and how they ended. -/
  | delayed (d : Delayed) (o : Outcome)
  /-- A loop, and what polling it gave. -/
  | polled (t : LoopTask) (p : Poll)

/-- Whether a unit of work ended a loop. -/
def Work.endsLoop : Work → Bool
  | .polled _ (.finished _) => true
  | _ => false

namespace Machine

/-- Runs delayed blocks after other work. -/
def runDelayed (limits : Limits) (before : List Work × Machine) (d : Delayed) :
    List Work × Machine :=
  let (o, d, m) := d.run before.2 limits
  (before.1 ++ [.delayed d o], m)

/-- Polls a loop after other work. -/
def pollLoop (limits : Limits) (before : List Work × Machine) (t : LoopTask) :
    List Work × Machine :=
  let (p, t, m) := t.poll before.2 limits
  let m := match p with
    | .pending => { m with agenda := m.agenda.addLoop t }
    | .finished _ => m
  (before.1 ++ [.polled t p], m)

/-- Runs the delayed blocks that are due. -/
def runDelays (m : Machine) (limits : Limits) : List Work × Machine :=
  let (due, agenda) := m.agenda.takeDelays
  due.foldl (runDelayed limits) ([], { m with agenda := agenda })

/-- Polls the loops that are due. -/
def pollLoops (m : Machine) (limits : Limits) : List Work × Machine :=
  let (due, agenda) := m.agenda.takeLoops
  due.foldl (pollLoop limits) ([], { m with agenda := agenda })

/-- Goes to the next tick and does what is due. -/
def tick (m : Machine) (limits : Limits) : List Work × Machine :=
  let (delays, m) := { m with agenda := m.agenda.advance }.runDelays limits
  let (loops, m) := m.pollLoops limits
  (delays ++ loops, m)

end Machine

end Blockwork
