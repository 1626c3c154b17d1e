import Blockwork.Script

/-!
# Events and who waits for them

A handler is a line that waits for a kind of event.  Handlers are kept in the order in which they
were registered.  Registering a script replaces everything its owner had registered before; lines
and scripts that are not enabled are registered too and passed over when the event comes.  An event
concerns the lines of the acting actor only.
-/

namespace Blockwork

/-- Something that happened. -/
structure Event where
  /-- What. -/
  kind : EventKind
  /-- Who acted. -/
  actor : ActorId
  /-- The other participants by role. -/
  roles : Table String ActorId := {}
  /-- Further data by key. -/
  data : Table String String := {}
deriving Inhabited

/-- A line that waits for an event. -/
structure Handler where
  /-- Its number. -/
  id : Nat
  /-- The owner of its script. -/
  owner : ActorId
  /-- The index of the line. -/
  line : Nat
deriving DecidableEq, Inhabited

/-- The handlers in the order of registration. -/
structure Handlers where
  /-- Each with the kind of event it waits for. -/
  entries : List (EventKind × Handler) := []
  /-- The number of the next handler. -/
  nextId : Nat := 0
deriving Inhabited

namespace Handlers

/-- Drops an owner's handlers. -/
def unregister (h : Handlers) (owner : ActorId) : Handlers :=
  { h with entries := h.entries.filter fun e => e.2.owner != owner }

/-- How many handlers an owner has. -/
def countOf (h : Handlers) (owner : ActorId) : Nat :=
  h.entries.countP fun e => e.2.owner == owner

/-- Adds a handler for each of the lines that starts with an event, the first of which has the given
index. -/
def addLines (owner : ActorId) : Nat → List Line → Handlers → Handlers
  | _, [], h => h
  | index, l :: rest, h =>
    match l.eventKind with
    | some kind =>
      addLines owner (index + 1) rest
        { entries := h.entries ++ [(kind, ⟨h.nextId, owner, index⟩)], nextId := h.nextId + 1 }
    | none => addLines owner (index + 1) rest h

/-- Registers a script in place of the owner's earlier one. -/
def register (h : Handlers) (s : Script) : Handlers :=
  addLines s.ownerId 0 s.lines (h.unregister s.ownerId)

/-- The handlers for a kind of event, in the order of registration. -/
def handlersFor (h : Handlers) (kind : EventKind) : List Handler :=
  (h.entries.filter fun e => e.1 == kind).map Prod.snd

/-- The handlers of an owner, in the order of registration. -/
def handlersOf (h : Handlers) (owner : ActorId) : List Handler :=
  (h.entries.map Prod.snd).filter fun handler => handler.owner == owner

/-- The handlers that an event starts. -/
def matching (h : Handlers) (e : Event) : List Handler :=
  (h.handlersFor e.kind).filter fun handler => handler.owner == e.actor

/-- How many handlers there are. -/
def size (h : Handlers) : Nat := h.entries.length

end Handlers

end Blockwork
