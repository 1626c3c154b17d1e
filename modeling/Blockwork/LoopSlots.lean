import Blockwork.Context

/-!
# Asynchronous loops in progress

Every actor has one slot for an asynchronous loop.  A slot that is taken cannot be taken again; a
stop request empties it at once and raises the loop's signal, which the loop notices when it is next
due.  A loop that ends empties its slot only if the slot still holds it, so an old loop never frees
the slot of a newer one.
-/

namespace Blockwork

/-- Signals that can be raised, each once and for good. -/
structure Signals where
  /-- The next signal to hand out. -/
  next : Signal := 0
  /-- The signals raised so far. -/
  raised : List Signal := []
deriving Inhabited

namespace Signals

/-- A new signal. -/
def fresh (s : Signals) : Signal × Signals := (s.next, { s with next := s.next + 1 })

/-- Raises a signal. -/
def raise (s : Signals) (signal : Signal) : Signals :=
  if s.raised.contains signal then s else { s with raised := signal :: s.raised }

/-- Whether a signal has been raised. -/
def isRaised (s : Signals) (signal : Signal) : Bool := s.raised.contains signal

end Signals

/-- A started loop: its number and the signal that stops it. -/
structure LoopHandle where
  /-- Its number. -/
  id : UInt32
  /-- Its signal. -/
  signal : Signal
deriving DecidableEq, Inhabited

/-- The slots of all actors. -/
structure LoopSlots where
  /-- The loops in progress. -/
  active : Table ActorId LoopHandle := {}
  /-- How many loops have been started. -/
  started : Nat := 0
deriving Inhabited

namespace LoopSlots

/-- Takes an actor's slot for a loop with the given signal.  Loops are numbered in the order in which
they start; after the last number there is, numbering begins anew. -/
def register (s : LoopSlots) (actor : ActorId) (signal : Signal) :
    Attempt (LoopHandle × LoopSlots) :=
  if s.active.contains actor then .error (.conflict .loopRunning)
  else
    let handle : LoopHandle := ⟨UInt32.ofNat s.started, signal⟩
    .ok (handle, { active := s.active.insert actor handle, started := s.started + 1 })

/-- Empties an actor's slot; the loop that held it is returned. -/
def remove (s : LoopSlots) (actor : ActorId) : Option (LoopHandle × LoopSlots) :=
  (s.active.get? actor).map fun handle => (handle, { s with active := s.active.erase actor })

/-- Empties an actor's slot if it holds the loop with the given number. -/
def release (s : LoopSlots) (actor : ActorId) (id : UInt32) : LoopSlots :=
  match s.active.get? actor with
  | some handle => if handle.id = id then { s with active := s.active.erase actor } else s
  | none => s

/-- Whether an actor has a loop in progress. -/
def isRunning (s : LoopSlots) (actor : ActorId) : Bool := s.active.contains actor

/-- How many loops are in progress. -/
def size (s : LoopSlots) : Nat := s.active.size

end LoopSlots

end Blockwork
