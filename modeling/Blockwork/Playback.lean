import Blockwork.Scenario
import Blockwork.Session
import Blockwork.Text.Terminal

/-!
# Playing scenarios

A playback takes a folder of scripts and a scenario and ticks a session until the scenario has run
dry, or up to a given tick.  On each tick the session ticks first, then the events that are due
happen in order, and then the messages that actors have received are relayed.  An actor who quits
is let go by the session and goes offline once the messages have been collected.

The tick counter has sixty-four bits, so the number of ticks that are left is a bound on the rest of
a playback, and `Playback.run` recurses on it.
-/

namespace Blockwork

/-- How important a line of the log is. -/
inductive LogLevel where
  | info | error
deriving DecidableEq, Inhabited

/-- A line of the log. -/
structure LogLine where
  /-- Its importance. -/
  level : LogLevel := .info
  /-- What it says. -/
  message : String
deriving DecidableEq, Inhabited

/-- The line as it is written. -/
def LogLine.text (l : LogLine) : String :=
  match l.level with
  | .info => "INFO " ++ Text.forTerminal l.message
  | .error => "ERROR " ++ Text.forTerminal l.message

/-- A file by its path, and its text if it can be read. -/
structure SourceFile where
  /-- Where it is. -/
  path : String
  /-- What it holds. -/
  text : Option String
deriving Inhabited

/-- What a playback is made of. -/
structure Setup where
  /-- Where the scripts are. -/
  scriptsPath : String
  /-- The scripts. -/
  scripts : FolderArchive
  /-- What happens. -/
  scenario : SourceFile
  /-- Limits other than the usual ones. -/
  limits : Option SourceFile := none
  /-- The last tick, if the end of the scenario does not decide. -/
  maxTicks : Option Nat := none
  /-- Kinds of side effects that are refused, divided by commas. -/
  denied : String := ""
  /-- The time that edits are marked with. -/
  now : Timestamp := ⟨0, 0⟩

/-- Why a playback came to nothing. -/
inductive PlaybackError where
  /-- The file with limits cannot be read. -/
  | unreadableLimits (path : String)
  /-- The file with limits does not hold limits. -/
  | malformedLimits (path : String)
  /-- The scenario cannot be read. -/
  | unreadableScenario (path : String)
  /-- The file with the scenario does not hold one. -/
  | malformedScenario (path : String)
  /-- The scenario cannot be played. -/
  | scenario (e : ScenarioError)
  /-- The scripts cannot be saved. -/
  | session (e : SessionError)
  /-- A calculation panicked. -/
  | contradiction
deriving Inhabited

namespace PlaybackError

/-- The text of an error. -/
def message : PlaybackError → String
  | .unreadableLimits path => "reading engine config " ++ path
  | .malformedLimits path => "parsing engine config " ++ path
  | .unreadableScenario path => "reading scenario " ++ path
  | .malformedScenario path => "parsing scenario " ++ path
  | .scenario e => e.message
  | .session e => e.message
  | .contradiction => Failure.panic.message

/-- What is printed about an error.  An empty line sets a panic apart from whatever was printed before;
where it happened is left out. -/
def report : PlaybackError → String
  | .contradiction => "\n" ++ message .contradiction
  | e => "Error: " ++ e.message

/-- The exit code. -/
def exitCode : PlaybackError → Nat
  | .contradiction => 101
  | _ => 1

end PlaybackError

/-- A message that was taken from its receiver to be shown. -/
structure Relay where
  /-- Who received it. -/
  actor : ActorId
  /-- The name of the receiver. -/
  name : String
  /-- What it says. -/
  message : String
deriving DecidableEq, Inhabited

/-- The line about a message. -/
def Relay.line (r : Relay) : LogLine := { message := "[" ++ r.name ++ "] " ++ r.message }

/-- A playback in progress. -/
structure Playback (σ : Type) where
  /-- The engine. -/
  session : Session σ
  /-- What is still to happen, earliest first. -/
  timeline : List TimedEvent
  /-- The lines logged, oldest first. -/
  log : List LogLine := []

/-- What is left of a playback. -/
structure PlaybackReport where
  /-- The lines logged. -/
  log : List LogLine
  /-- Why it came to nothing, if it did. -/
  failure : Option PlaybackError
  /-- The scripts afterwards. -/
  scripts : FolderArchive

namespace Setup

/-- The limits of a playback. -/
def readLimits (s : Setup) : Except PlaybackError Limits :=
  match s.limits with
  | none => .ok {}
  | some file =>
    match file.text with
    | none => .error (.unreadableLimits file.path)
    | some text =>
      match Limits.ofText? text with
      | some limits => .ok limits
      | none => .error (.malformedLimits file.path)

/-- The scenario of a playback. -/
def readScenario (s : Setup) : Except PlaybackError Scenario :=
  match s.scenario.text with
  | none => .error (.unreadableScenario s.scenario.path)
  | some text =>
    match Scenario.ofText? text with
    | some scenario => .ok scenario
    | none => .error (.malformedScenario s.scenario.path)

/-- A number of things in a log line. -/
def counted (n : Nat) (what : String) : String := Text.natural n ++ " " ++ what ++ "(s)"

/-- The line about the folder of scripts. -/
def scriptsLine (s : Setup) : LogLine :=
  let owners := s.scripts.entries.keys.filterMap FolderArchive.ownerOf?
  { message := "Scripts directory: " ++ s.scriptsPath ++ " (" ++ counted owners.length "script" ++ ")" }

/-- The line about the scenario. -/
def scenarioLine (s : Setup) (actors events : Nat) : LogLine :=
  { message := "Scenario " ++ s.scenario.path ++ ": " ++ counted actors "actor" ++ ", " ++
      counted events "event" }

/-- Sets a playback up; the lines logged on the way come with a failure too. -/
def open_ (s : Setup) : Except (PlaybackError × List LogLine) (Playback FolderArchive) :=
  let started : List LogLine := [{ message := "Starting BlockScript runner" }]
  match s.readLimits with
  | .error e => .error (e, started)
  | .ok limits =>
    let log := started ++ [s.scriptsLine]
    match s.readScenario with
    | .error e => .error (e, log)
    | .ok scenario =>
      match scenario.timeline with
      | .error e => .error (.scenario e, log)
      | .ok timeline =>
        let session := Session.start limits scenario.world (.denying s.denied) s.scripts
        .ok {
          session := { session with now := s.now }
          timeline := timeline
          log := log ++ [s.scenarioLine scenario.actors.length timeline.length] }

end Setup

namespace Playback

variable {σ : Type}

/-- The current tick. -/
def tick (p : Playback σ) : Nat := p.session.machine.agenda.tick

/-- Adds lines to the log. -/
def say (p : Playback σ) (lines : List LogLine) : Playback σ := { p with log := p.log ++ lines }

/-- Changes the machine. -/
def withMachine (p : Playback σ) (f : Machine → Machine) : Playback σ :=
  { p with session := { p.session with machine := f p.session.machine } }

/-- Whether a panic has broken the playback off. -/
def isBroken (p : Playback σ) : Bool := p.session.machine.contradicted

/-- Moves the lines about requested side effects to the log; what was requested after a panic is not
logged. -/
def collectEffects (p : Playback σ) : Playback σ :=
  let effects := p.session.machine.contradiction.getD p.session.machine.effects
  (p.say (effects.logged.map fun m => { message := m })).withMachine fun m =>
    { m with effects := m.effects.clearLog }

/-- Takes the messages that actors have received, one actor after another. -/
def drain : List Actor → World → List Relay × World
  | [], w => ([], w)
  | a :: rest, w =>
    let taken := (w.messages a.id).map fun m => { actor := a.id, name := a.name, message := m }
    let (more, w) := drain rest (w.clearMessages a.id)
    (taken ++ more, w)

/-- Takes the messages that actors who are online have received, in the order of the actors. -/
def collectMessages (p : Playback σ) : List Relay × Playback σ :=
  let world := p.session.machine.world
  let (relayed, world) := drain world.actors world
  (relayed, p.withMachine fun m => { m with world := world })

/-- Lets an actor who has quit go: the messages so far are handed over, and the actor is offline
afterwards. -/
def letGo [Archive σ] (p : Playback σ) (actor : ActorId) : List Relay × Playback σ :=
  let (result, session) := p.session.depart actor
  let p := { p with session := session }
  let p := match result with
    | .ok _ => p
    | .error e =>
      p.say [{ level := .error
               message := "Failed to save script of " ++ actor.text ++ ": " ++ e.message }]
  let (relayed, p) := p.collectMessages
  (relayed, p.withMachine fun m => { m with world := m.world.removeActor actor })

/-- Lets an event happen; an actor who quits is let go. -/
def happen [Archive σ] (p : Playback σ) (e : Event) : List Relay × Playback σ :=
  let p := { p with session := p.session.dispatch e }.collectEffects
  if e.kind = .quit && !p.isBroken then p.letGo e.actor else ([], p)

/-- Lets the events happen that are due, one after another, and keeps the rest. -/
def play [Archive σ] (now : Nat) : List TimedEvent → Playback σ → List Relay × Playback σ
  | [], p => ([], { p with timeline := [] })
  | t :: rest, p =>
    if now < t.tick || p.isBroken then ([], { p with timeline := t :: rest })
    else
      let (relayed, p) := p.happen t.event
      let (more, p) := play now rest p
      (relayed ++ more, p)

/-- The next tick, with the messages that are relayed on it. -/
def step [Archive σ] (p : Playback σ) : List Relay × Playback σ :=
  let p := { p with session := p.session.tick }.collectEffects
  let (relayed, p) := play p.tick p.timeline p
  let (more, p) := p.collectMessages
  (relayed ++ more, p)

/-- The next tick, with its messages in the log.  The messages of a tick that is broken off are lost. -/
def next [Archive σ] (p : Playback σ) : Playback σ :=
  let (relayed, p) := p.step
  if p.isBroken then p else p.say (relayed.map Relay.line)

/-- Whether a playback is over: at its last tick, or when nothing is left to happen. -/
def isOver (p : Playback σ) (maxTicks : Option Nat) : Bool :=
  match maxTicks with
  | some last => last ≤ p.tick
  | none =>
    p.timeline.isEmpty && p.session.machine.agenda.loops.isEmpty &&
      p.session.machine.agenda.delays.isEmpty

/-- Ticks until the playback is over, at most the given number of times. -/
def run [Archive σ] (maxTicks : Option Nat) : Nat → Playback σ → Playback σ
  | 0, p => p
  | n + 1, p =>
    let p := p.next
    if p.isBroken || p.isOver maxTicks then p else run maxTicks n p

/-- Saves the scripts at the end. -/
def close (p : Playback FolderArchive) : PlaybackReport :=
  if p.isBroken then ⟨p.log, some .contradiction, p.session.archive⟩
  else
    let p := p.say [{ message := "Stopping after tick " ++ Text.natural p.tick }]
    match p.session.flush with
    | (.ok saved, s) =>
      let line := "Saved " ++ Setup.counted saved "script" ++ ", shutting down"
      ⟨p.log ++ [{ message := line }], none, s.archive⟩
    | (.error e, s) => ⟨p.log, some (.session e), s.archive⟩

end Playback

/-- Plays a scenario from start to end. -/
def Setup.play (s : Setup) : PlaybackReport :=
  match s.open_ with
  | .error (e, log) => ⟨log, some e, s.scripts⟩
  | .ok p => (p.run s.maxTicks Agenda.lastTick).close

end Blockwork
