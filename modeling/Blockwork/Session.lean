import Blockwork.Archive
import Blockwork.Handlers
import Blockwork.Interpreter

/-!
# Sessions

A session owns everything the engine needs: the scripts that are loaded, the handlers of their
lines, the machine, and an archive.  Events start the lines of the acting actor; ticks run what was
put off.  A unit of work is a line started by an event, a delayed body or one iteration of an
asynchronous loop.  After every unit the variables are committed to the script of its actor, which
is then marked as changed, and a failure is reported to the actor.

Scripts are found under the actor they were loaded or installed for; handlers and stored documents
go by the owner that is written in the script.
-/

namespace Blockwork

/-- Why a session could not do what was asked. -/
inductive SessionError where
  /-- A script has a structural problem. -/
  | invalid (p : Problem)
  /-- The archive failed. -/
  | archive (e : ArchiveError)
  /-- No script is loaded for an actor. -/
  | unknownScript (owner : ActorId)
  /-- A script has no such line. -/
  | unknownLine (owner : ActorId) (line : Nat)
deriving Inhabited

/-- The text of an error. -/
def SessionError.message : SessionError → String
  | .invalid p => "invalid script: " ++ p.message
  | .archive e => e.message
  | .unknownScript owner => "no script for " ++ owner.text
  | .unknownLine owner line =>
    "script of " ++ owner.text ++ " has no line " ++ Text.natural line

/-- A running engine over an archive. -/
structure Session (σ : Type) where
  /-- Caps on what runs may do. -/
  limits : Limits := {}
  /-- The world and the work in progress. -/
  machine : Machine := {}
  /-- Where scripts are kept. -/
  archive : σ
  /-- The scripts that are loaded. -/
  scripts : Table ActorId Script := {}
  /-- The actors whose scripts have changed since they were saved. -/
  dirty : Table ActorId Unit := {}
  /-- The lines that wait for events. -/
  handlers : Handlers := {}
  /-- Events for the next tick, oldest first. -/
  inbox : List Event := []
  /-- The source of new identities. -/
  supply : Uuid.Supply := ⟨0⟩
  /-- The time that edits are marked with. -/
  now : Timestamp := ⟨0, 0⟩

namespace Session

variable {σ : Type}

/-- A new session. -/
def start (limits : Limits) (world : World) (effects : Effects) (archive : σ) : Session σ :=
  { limits
    archive
    machine := { world, effects, dice := .ofSeed (limits.seed.getD 0) } }

/-- Marks an actor's script as changed. -/
def markDirty (s : Session σ) (owner : ActorId) : Session σ :=
  { s with dirty := s.dirty.insert owner () }

/-- Takes over a valid script in place of the owner's earlier one. -/
def install (s : Session σ) (script : Script) : Except SessionError (Session σ) :=
  match script.validate with
  | .error p => .error (.invalid p)
  | .ok _ =>
    let script := script.rebuildFunctions
    let s := { s with
      handlers := s.handlers.register script
      scripts := s.scripts.insert script.ownerId script }
    .ok (s.markDirty script.ownerId)

/-- Makes sure that an actor's script is loaded, if there is one; whether there is. -/
def ensureLoaded [Archive σ] (s : Session σ) (owner : ActorId) :
    Except SessionError (Bool × Session σ) :=
  if s.scripts.contains owner then .ok (true, s)
  else
    match Archive.load s.archive owner s.supply with
    | .error e => .error (.archive e)
    | .ok none => .ok (false, s)
    | .ok (some (script, supply)) =>
      let script := script.rebuildFunctions
      .ok (true, { s with
        supply := supply
        handlers := s.handlers.register script
        scripts := s.scripts.insert owner script })

/-- The script an actor starts out with. -/
def blankScript (s : Session σ) (owner : ActorId) : Script :=
  let name := match s.machine.world.actor? owner with
    | some a => a.name
    | none => owner.text
  { ownerId := owner, ownerName := name, lastModified := s.now }

/-- Edits an actor's script, which is loaded or made first. -/
def edit [Archive σ] (s : Session σ) (owner : ActorId) (change : Script → Script) :
    Except SessionError (Session σ) :=
  match s.ensureLoaded owner with
  | .error e => .error e
  | .ok (found, s) =>
    let s := if found then s
      else { s with scripts := s.scripts.insert owner (s.blankScript owner) }
    match s.scripts.get? owner with
    | none => .error (.unknownScript owner)
    | some script =>
      let script := ((change script).rebuildFunctions).touch s.now
      let s := { s with
        scripts := s.scripts.insert owner script
        handlers := s.handlers.register script }
      .ok (s.markDirty owner)

/-- Turns a line of a loaded script on or off. -/
def setLineEnabled (s : Session σ) (owner : ActorId) (line : Nat) (enabled : Bool) :
    Except SessionError (Session σ) :=
  match s.scripts.get? owner with
  | none => .error (.unknownScript owner)
  | some script =>
    if line < script.lines.length then
      let lines := script.lines.modify line fun l => { l with enabled := enabled }
      let script := { script with lines := lines }.touch s.now
      .ok ({ s with scripts := s.scripts.insert owner script }.markDirty owner)
    else .error (.unknownLine owner line)

/-- Stops an actor's asynchronous loop; whether there was one. -/
def stopLoop (s : Session σ) (actor : ActorId) : Bool × Session σ :=
  let (found, machine) := s.machine.requestStop actor
  (found, { s with machine := machine })

/-! ## Units of work -/

/-- Binds the name of an actor who is online to a role. -/
def bindActor (w : World) (c : Context) (role : String) (id : ActorId) : Context :=
  match w.actor? id with
  | some a => c.setRole role a.name
  | none => c

/-- Binds the participants and data of an event to roles.  Later bindings win: the acting actor,
the other participants, someone at random, and the data. -/
def bindRoles (c : Context) (e : Event) (w : World) (dice : Dice) : Context × Dice :=
  let c := match e.kind.actorRole with
    | some role => bindActor w c role e.actor
    | none => c
  let c := bindActor w c "player" e.actor
  let c := e.roles.toList.foldl (fun c r => bindActor w c r.1 r.2) c
  let (random, dice) := dice.choose w.actors
  let c := match random with
    | some a => c.setRole "random" a.name
    | none => c
  (e.data.toList.foldl (fun c d => c.setRole ("event_" ++ d.1) d.2) c, dice)

/-- The report of a failure. -/
def reportText (line : String) (e : Failure) : String :=
  "[BlockScript] Error in line '" ++ line ++ "': " ++ e.message

/-- Reports a failure to an actor. -/
def report (m : Machine) (actor : ActorId) (line : String) : Outcome → Machine
  | .error e => { m with world := m.world.send actor (reportText line e) }
  | _ => m

/-- Commits a context to the loaded script of an actor and marks the script as changed. -/
def commit (s : Session σ) (owner : ActorId) (c : Context) : Session σ :=
  match s.scripts.get? owner with
  | some script =>
    let script := { script with globals := c.commit script.globals }
    { s with scripts := s.scripts.insert owner script }.markDirty owner
  | none => s

/-- Ends a unit of work: commits its context and reports its failure. -/
def conclude (s : Session σ) (owner : ActorId) (c : Context) (o : Outcome) (m : Machine) :
    Session σ :=
  ({ s with machine := report m owner c.frame.line o }).commit owner c

/-- Whether a script may react to an event of an actor where the actor is now. -/
def isBoundHere (w : World) (script : Script) (actor : ActorId) : Bool :=
  match script.boundWorld with
  | some world => (w.actor? actor).any fun a => a.location.world == world
  | none => true

/-- Runs a handler's line for an event, unless the line, its script or the world is against it. -/
def runHandler (s : Session σ) (h : Handler) (e : Event) : Session σ :=
  match s.scripts.get? h.owner with
  | none => s
  | some script =>
    match script.lines[h.line]? with
    | none => s
    | some line =>
      if script.enabled && line.enabled && isBoundHere s.machine.world script e.actor then
        let m := s.machine
        let (signal, signals) := m.signals.fresh
        let c := Context.ofScript e.actor script s.limits.logEntries signal
        let (c, dice) := bindRoles c e m.world m.dice
        let (o, c, m) := c.runLine { m with signals := signals, dice := dice } s.limits line
        ({ s with machine := report m e.actor c.frame.line o }).commit h.owner c
      else s

/-- Starts the lines of the acting actor that wait for an event. -/
def dispatchNow [Archive σ] (s : Session σ) (e : Event) : Session σ :=
  match s.ensureLoaded e.actor with
  | .error _ => s
  | .ok (_, s) => (s.handlers.matching e).foldl (fun s h => s.runHandler h e) s

/-- Puts an event off to the next tick. -/
def queue (s : Session σ) (e : Event) : Session σ := { s with inbox := s.inbox ++ [e] }

/-- Takes an event: at once on the thread that ticks, and at the next tick otherwise. -/
def dispatch [Archive σ] (s : Session σ) (e : Event) : Session σ :=
  if s.machine.world.onTickThread then s.dispatchNow e else s.queue e

/-- A context with the present globals of its actor's script, if one is loaded. -/
def refreshed (s : Session σ) (c : Context) : Context :=
  match s.scripts.get? c.frame.actor with
  | some script => c.refresh script.globals
  | none => c

/-- Runs delayed blocks. -/
def runDelayed (s : Session σ) (d : Delayed) : Session σ :=
  let (o, d, m) := { d with context := s.refreshed d.context }.run s.machine s.limits
  s.conclude d.actor d.context o m

/-- Polls a loop; one that is not over goes back to the agenda. -/
def pollLoop (s : Session σ) (t : LoopTask) : Session σ :=
  let (poll, t, m) := { t with context := s.refreshed t.context }.poll s.machine s.limits
  match poll with
  | .finished o => s.conclude t.actor t.context o m
  | .pending =>
    s.conclude t.actor t.context .success { m with agenda := m.agenda.addLoop t }

/-- Runs the delayed blocks that are due. -/
def runDelays (s : Session σ) : Session σ :=
  let (due, agenda) := s.machine.agenda.takeDelays
  due.foldl runDelayed { s with machine := { s.machine with agenda := agenda } }

/-- Polls the loops that are due. -/
def pollLoops (s : Session σ) : Session σ :=
  let (due, agenda) := s.machine.agenda.takeLoops
  due.foldl pollLoop { s with machine := { s.machine with agenda := agenda } }

/-- Goes to the next tick: first the events that wait, then what is delayed to the new tick, then
one iteration of every loop that is due. -/
def tick [Archive σ] (s : Session σ) : Session σ :=
  let s := s.inbox.foldl dispatchNow { s with inbox := [] }
  let s := { s with machine := { s.machine with agenda := s.machine.agenda.advance } }
  s.runDelays.pollLoops

/-! ## Saving -/

/-- Lets an actor go: stops the loop, drops what was put off, saves and unloads the script. -/
def depart [Archive σ] (s : Session σ) (actor : ActorId) :
    Except SessionError Unit × Session σ :=
  let m := (s.machine.requestStop actor).2.cancelActor actor
  let s := { s with
    machine := m
    handlers := s.handlers.unregister actor
    dirty := s.dirty.erase actor }
  match s.scripts.get? actor with
  | none => (.ok (), s)
  | some script =>
    let (result, archive) := Archive.save s.archive script
    let s := { s with archive := archive, scripts := s.scripts.erase actor }
    match result with
    | .ok _ => (.ok (), s)
    | .error e => (.error (.archive e), s)

/-- The state of saving many scripts: how many were saved, and the first failure. -/
structure Flush (σ : Type) where
  /-- The session so far. -/
  session : Session σ
  /-- Scripts saved. -/
  saved : Nat := 0
  /-- The first failure. -/
  failure : Option ArchiveError := none

/-- Saves one actor's script; one that cannot be saved stays marked as changed. -/
def flushOne [Archive σ] (f : Flush σ) (owner : ActorId) : Flush σ :=
  match f.session.scripts.get? owner with
  | none => f
  | some script =>
    let (result, archive) := Archive.save f.session.archive script
    let s := { f.session with archive := archive }
    match result with
    | .ok _ => { f with session := s, saved := f.saved + 1 }
    | .error e => { f with session := s.markDirty owner, failure := f.failure.orElse fun _ => some e }

/-- Saves every script that has changed; how many were saved, or the first failure. -/
def flush [Archive σ] (s : Session σ) : Except SessionError Nat × Session σ :=
  let f := s.dirty.keys.foldl flushOne { session := { s with dirty := {} } }
  match f.failure with
  | none => (.ok f.saved, f.session)
  | some e => (.error (.archive e), f.session)

end Session

end Blockwork
