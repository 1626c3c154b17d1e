import Blockwork.Block
import Blockwork.Failure
import Blockwork.Script

/-!
# Contexts

The state of one run on behalf of one actor, in two parts.  The *frame* is fixed while a list of
blocks runs: the actor, the line, the snapshot of the script's globals, the roles, the subject, the
functions, the depth of calls, the room in the log and the signal that cancels the run.  The *scope*
is what blocks change: the overlay of variables, and the log.

Reading looks into the overlay first and then into the snapshot.  Writing only ever touches the
overlay, where a cleared variable hides the global of its name; `Context.commit` moves the overlay
into the script afterwards.  Names that begin with an underscore are transient and never committed.
-/

namespace Blockwork

/-- The subject of the blocks that follow. -/
inductive Target where
  /-- Nobody. -/
  | nobody
  /-- One actor. -/
  | actor (id : ActorId)
  /-- Several actors. -/
  | actors (ids : List ActorId)
  /-- One entity. -/
  | entity (id : EntityId)
  /-- Several entities. -/
  | entities (ids : List EntityId)
  /-- A value that is neither. -/
  | value (d : Datum)
deriving Inhabited

namespace Target

/-- Whether there is no subject. -/
def isNobody : Target → Bool
  | .nobody => true
  | _ => false

/-- The actors among the subject, in order. -/
def actorIds : Target → List ActorId
  | .actor id | .value (.actor id) => [id]
  | .actors ids => ids
  | _ => []

/-- The members of the subject, each as a subject of its own. -/
def members : Target → List Target
  | .nobody => []
  | .actors ids => ids.map .actor
  | .entities ids => ids.map .entity
  | single => [single]

end Target

/-- A block that has run. -/
structure LogEntry where
  /-- Which one. -/
  block : BlockId
  /-- Its type. -/
  type : BlockType
  /-- How it ended. -/
  outcome : String
deriving DecidableEq, Inhabited

/-- Names a cancellation. -/
abbrev Signal := Nat

/-- What stays the same while a list of blocks runs. -/
structure Frame where
  /-- On whose behalf. -/
  actor : ActorId
  /-- Name of the line. -/
  line : String := ""
  /-- The script's globals when the run began. -/
  globals : Table String Datum := {}
  /-- Names of the participants and other data of the event. -/
  roles : Table String String := {}
  /-- The subject. -/
  target : Target
  /-- The script's functions. -/
  functions : Table String Block := {}
  /-- Calls in progress. -/
  callDepth : Nat := 0
  /-- Room in the log. -/
  logLimit : Nat
  /-- The signal that cancels loops. -/
  cancel : Signal
deriving Inhabited

/-- What blocks change. -/
structure Scope where
  /-- Variables written; one that was cleared has no value. -/
  locals : Table String (Option Datum) := {}
  /-- Blocks that have run, oldest first. -/
  log : Array LogEntry := #[]
  /-- Blocks that have run and found no room in the log. -/
  dropped : Nat := 0
deriving Inhabited

/-- The state of a run. -/
structure Context where
  /-- The fixed part. -/
  frame : Frame
  /-- The part that changes. -/
  scope : Scope := {}
deriving Inhabited

namespace Scope

/-- Writes a variable. -/
def set (s : Scope) (name : String) (d : Datum) : Scope :=
  { s with locals := s.locals.insert name (some d) }

/-- Clears a variable. -/
def clear (s : Scope) (name : String) : Scope := { s with locals := s.locals.insert name none }

/-- Notes that a block has run, if there is room. -/
def record (s : Scope) (limit : Nat) (b : Block) (o : Outcome) : Scope :=
  if limit ≤ s.log.size then { s with dropped := s.dropped + 1 }
  else { s with log := s.log.push ⟨b.id, b.blockType, o.label⟩ }

end Scope

/-- The globals of a script as run-time values. -/
def snapshot (globals : Table String Scalar) : Table String Datum := globals.map Datum.ofScalar

/-- Whether a name is never committed. -/
def isTransient (name : String) : Bool :=
  match name.toList with
  | c :: _ => c == '_'
  | [] => false

namespace Context

/-- The log limit of a context without one. -/
def unlimited : Nat := Nat.pow 2 64 - 1

/-- A context for a run of a script. -/
def ofScript (actor : ActorId) (s : Script) (logLimit : Nat) (cancel : Signal) : Context :=
  { frame := {
      actor
      target := .actor actor
      globals := snapshot s.globals
      functions := s.functions
      logLimit
      cancel } }

/-- A context without a script. -/
def detached (actor : ActorId) (cancel : Signal) : Context :=
  { frame := { actor, target := .actor actor, logLimit := unlimited, cancel } }

/-- The value of a variable. -/
def get? (c : Context) (name : String) : Option Datum :=
  match c.scope.locals.get? name with
  | some own => own
  | none => c.frame.globals.get? name

/-- Whether a variable has a value. -/
def contains (c : Context) (name : String) : Bool := (c.get? name).isSome

/-- The names of the variables that have a value: those of the overlay, then the others. -/
def visibleNames (c : Context) : List String :=
  (c.scope.locals.toList.filterMap fun (name, own) => own.map fun _ => name) ++
    c.frame.globals.keys.filter fun name => !c.scope.locals.contains name

/-- Writes a variable. -/
def set (c : Context) (name : String) (d : Datum) : Context :=
  { c with scope := c.scope.set name d }

/-- Clears a variable. -/
def clear (c : Context) (name : String) : Context := { c with scope := c.scope.clear name }

/-- The text bound to a role. -/
def role? (c : Context) (role : String) : Option String := c.frame.roles.get? role

/-- Binds a role. -/
def setRole (c : Context) (role value : String) : Context :=
  { c with frame := { c.frame with roles := c.frame.roles.insert role value } }

/-- Notes that a block has run, if there is room. -/
def record (c : Context) (b : Block) (o : Outcome) : Context :=
  { c with scope := c.scope.record c.frame.logLimit b o }

/-- The context of a called function: the caller's variables, one call deeper, with an empty log and
the room that the caller has left. -/
def forCall (c : Context) : Context :=
  { frame := {
      c.frame with
      callDepth := c.frame.callDepth + 1
      logLimit := c.frame.logLimit - c.scope.log.size }
    scope := { locals := c.scope.locals } }

/-- The overlay after a variable of the caller has been compared with the callee's. -/
def mergeName (caller callee : Context) (locals : Table String (Option Datum)) (name : String) :
    Table String (Option Datum) :=
  match callee.get? name with
  | none => locals.insert name none
  | some d =>
    match caller.get? name with
    | some old => if old == d then locals else locals.insert name (some d)
    | none => locals.insert name (some d)

/-- Takes over from a finished call every variable that had a value before it, and the log. -/
def mergeBack (c callee : Context) : Context :=
  { c with
    scope := {
      locals := c.visibleNames.foldl (mergeName c callee) c.scope.locals
      log := c.scope.log ++ callee.scope.log
      dropped := c.scope.dropped + callee.scope.dropped } }

/-- Moves one variable of the overlay into the globals. -/
def commitEntry (globals : Table String Scalar) (entry : String × Option Datum) :
    Table String Scalar :=
  if isTransient entry.1 then globals
  else
    match entry.2 with
    | some d => globals.insert entry.1 d.toScalar
    | none => globals.erase entry.1

/-- Moves the overlay into the globals. -/
def commit (c : Context) (globals : Table String Scalar) : Table String Scalar :=
  c.scope.locals.toList.foldl commitEntry globals

/-- Takes a new snapshot; only transient variables of the overlay are kept. -/
def refresh (c : Context) (globals : Table String Scalar) : Context :=
  { frame := { c.frame with globals := snapshot globals }
    scope := { c.scope with locals := c.scope.locals.filter fun name _ => isTransient name } }

end Context

end Blockwork
