import Blockwork.Proofs.Session.Happenings

/-!
# The course of a session

A tick is not one thing.  The events that wait are handed over at the old tick; then the counter moves
and the bodies that are due are taken out of the agenda; when they have run, the loops that are due are
taken out and polled.  A chronicle is a session in the middle of this, with what has happened so far.
Stop requests, new events and changes of the world may come at any moment, everything else only while
the session is calm.

Chronicles know nothing of a session that the session itself does not do: without interference, an event
leads to `Session.dispatchNow` and a tick to `Session.tick` (`reached_dispatchNow`, `reached_tick`).
-/

namespace Blockwork

/-- What a session is in the middle of. -/
inductive Phase where
  /-- Nothing. -/
  | calm
  /-- Handing over events: the lines that still have to run for one, the events after it, and whether a
  tick follows. -/
  | events (lines : List (Handler × Event)) (rest : List Event) (ticks : Bool)
  /-- Running the bodies that are due. -/
  | delays (due : List Delayed)
  /-- Polling the loops that are due. -/
  | loops (due : List LoopTask)

/-- The next unit of work, and the phase after it. -/
def Phase.first? : Phase → Option (Job × Phase)
  | .events ((h, e) :: lines) rest ticks => some (.handler h e, .events lines rest ticks)
  | .delays (d :: due) => some (.delayed d, .delays due)
  | .loops (t :: due) => some (.iteration t, .loops due)
  | _ => none

/-- What a host can do to a calm session besides events, ticks and departures, and what can happen
around it. -/
inductive Session.Tends {σ : Type} [Archive σ] (s : Session σ) : Session σ → Prop where
  /-- A script is installed. -/
  | install {script : Script} {s' : Session σ} (done : s.install script = .ok s') : Tends s s'
  /-- A script is edited. -/
  | edit {owner : ActorId} {change : Script → Script} {s' : Session σ}
      (done : s.edit owner change = .ok s') : Tends s s'
  /-- A line is turned on or off. -/
  | setLineEnabled {owner : ActorId} {line : Nat} {enabled : Bool} {s' : Session σ}
      (done : s.setLineEnabled owner line enabled = .ok s') : Tends s s'
  /-- A script is looked for. -/
  | load {owner : ActorId} {found : Bool} {s' : Session σ}
      (done : s.ensureLoaded owner = .ok (found, s')) : Tends s s'
  /-- Scripts are saved. -/
  | flush : Tends s s.flush.2
  /-- The handler of side effects, the archive or the time change. -/
  | around (effects : Effects) (archive : σ) (supply : Uuid.Supply) (now : Timestamp) :
      Tends s { s with
        machine := { s.machine with effects := effects }
        archive := archive
        supply := supply
        now := now }

/-- A session at the point of the next tick at which the bodies that are due begin. -/
def Session.atBodies {σ : Type} (s : Session σ) : Session σ :=
  { s with machine := { s.machine with agenda := s.machine.agenda.advance.takeDelays.2 } }

/-- A session at the point of a tick at which the loops that are due begin. -/
def Session.atLoops {σ : Type} (s : Session σ) : Session σ :=
  { s with machine := { s.machine with agenda := s.machine.agenda.takeLoops.2 } }

/-- A session, what it is in the middle of, and what has happened. -/
structure Chronicle (σ : Type) where
  /-- The session. -/
  session : Session σ
  /-- What it is in the middle of. -/
  phase : Phase := .calm
  /-- What has happened, oldest first. -/
  history : List Happening := []

namespace Chronicle

variable {σ : Type}

/-- The agenda at present. -/
def agenda (c : Chronicle σ) : Agenda := c.session.machine.agenda

variable [Archive σ]

/-- One step in the course of a session. -/
inductive Proceeds : Chronicle σ → Chronicle σ → Prop where
  /-- The host does something. -/
  | tend {s s' : Session σ} {past : List Happening} (done : s.Tends s') :
      Proceeds ⟨s, .calm, past⟩ ⟨s', .calm, past⟩
  /-- An actor departs. -/
  | depart {s : Session σ} {past : List Happening} (a : ActorId) :
      Proceeds ⟨s, .calm, past⟩ ⟨(s.depart a).2, .calm, past ++
        [.departure s.machine.agenda.tick a (s.machine.agenda.delays.filter fun d => d.actor == a)]⟩
  /-- A loop is told to stop. -/
  | stop {s : Session σ} {p : Phase} {past : List Happening} (a : ActorId) :
      Proceeds ⟨s, p, past⟩ ⟨(s.stopLoop a).2, p, past⟩
  /-- The world changes; actors come and go. -/
  | world {s : Session σ} {p : Phase} {past : List Happening} (w : World) :
      Proceeds ⟨s, p, past⟩ ⟨{ s with machine := { s.machine with world := w } }, p, past⟩
  /-- An event is put off to the next tick. -/
  | queue {s : Session σ} {p : Phase} {past : List Happening} (e : Event) :
      Proceeds ⟨s, p, past⟩ ⟨s.queue e, p, past⟩
  /-- An event is handed over at once. -/
  | event {s : Session σ} {past : List Happening} (e : Event) :
      Proceeds ⟨s, .calm, past⟩ ⟨s, .events [] [e] false, past⟩
  /-- A tick begins. -/
  | tick {s : Session σ} {past : List Happening} :
      Proceeds ⟨s, .calm, past⟩ ⟨{ s with inbox := [] }, .events [] s.inbox true, past⟩
  /-- The script of an event's actor cannot be loaded. -/
  | refuse {s : Session σ} {past : List Happening} {e : Event} {rest : List Event} {ticks : Bool}
      {error : SessionError} (failed : s.ensureLoaded e.actor = .error error) :
      Proceeds ⟨s, .events [] (e :: rest) ticks, past⟩ ⟨s, .events [] rest ticks, past⟩
  /-- The lines that wait for an event are found. -/
  | load {s s' : Session σ} {past : List Happening} {e : Event} {rest : List Event} {ticks : Bool}
      {found : Bool} (loaded : s.ensureLoaded e.actor = .ok (found, s')) :
      Proceeds ⟨s, .events [] (e :: rest) ticks, past⟩
        ⟨s', .events ((s'.handlers.matching e).map fun h => (h, e)) rest ticks, past⟩
  /-- A unit of work is done. -/
  | unit {s : Session σ} {p p' : Phase} {past : List Happening} {j : Job} {x : Happening}
      (first : p.first? = some (j, p')) (done : s.Performs j x) :
      Proceeds ⟨s, p, past⟩ ⟨j.run s, p', past ++ [x]⟩
  /-- The event has been dealt with. -/
  | eventDone {s : Session σ} {past : List Happening} :
      Proceeds ⟨s, .events [] [] false, past⟩ ⟨s, .calm, past⟩
  /-- The counter moves, and the bodies that are due come out of the agenda. -/
  | advance {s : Session σ} {past : List Happening} :
      Proceeds ⟨s, .events [] [] true, past⟩
        ⟨{ s with machine := { s.machine with agenda := s.machine.agenda.advance.takeDelays.2 } },
          .delays s.machine.agenda.advance.takeDelays.1, past⟩
  /-- The loops that are due come out of the agenda. -/
  | poll {s : Session σ} {past : List Happening} :
      Proceeds ⟨s, .delays [], past⟩
        ⟨{ s with machine := { s.machine with agenda := s.machine.agenda.takeLoops.2 } },
          .loops s.machine.agenda.takeLoops.1, past⟩
  /-- The tick is over. -/
  | tickDone {s : Session σ} {past : List Happening} :
      Proceeds ⟨s, .loops [], past⟩ ⟨s, .calm, past⟩

/-- The chronicles that begin with a new session. -/
inductive Reached : Chronicle σ → Prop where
  | start (limits : Limits) (world : World) (effects : Effects) (archive : σ) :
      Reached ⟨.start limits world effects archive, .calm, []⟩
  | step {c c' : Chronicle σ} (before : Reached c) (next : Proceeds c c') : Reached c'

/-! ## What the session itself does -/

variable {s : Session σ} {past : List Happening}

/-- Units of work are done one after another, all at the same tick. -/
theorem reached_units {α : Type} (make : List α → Phase) (job : α → Job)
    (first : ∀ a l, (make (a :: l)).first? = some (job a, make l)) {kind : Nat → Happening → Prop}
    (each : ∀ {s : Session σ} {a x}, s.Performs (job a) x → kind s.machine.agenda.tick x)
    {l : List α} (reached : Reached ⟨s, make l, past⟩) :
    ∃ news, Reached ⟨l.foldl (fun s a => (job a).run s) s, make [], past ++ news⟩ ∧
      (l.foldl (fun s a => (job a).run s) s).machine.agenda.tick = s.machine.agenda.tick ∧
      ∀ x ∈ news, kind s.machine.agenda.tick x := by
  induction l generalizing s past with
  | nil => exact ⟨[], by rwa [List.append_nil], rfl, fun x mem => nomatch mem⟩
  | cons a l ih =>
      obtain ⟨x, done⟩ := s.exists_performs (job a)
      obtain ⟨back, moves⟩ := done.moves
      obtain ⟨news, later, same, kinds⟩ := ih (reached.step (.unit (first a l) done))
      rw [List.append_assoc] at later
      rw [moves.tick] at same kinds
      exact ⟨x :: news, later, same, List.forall_mem_cons.mpr ⟨each done, kinds⟩⟩

theorem reached_event {e : Event} {rest : List Event} {ticks : Bool}
    (reached : Reached ⟨s, .events [] (e :: rest) ticks, past⟩) :
    ∃ news, Reached ⟨s.dispatchNow e, .events [] rest ticks, past ++ news⟩ ∧
      (s.dispatchNow e).machine.agenda.tick = s.machine.agenda.tick ∧
      ∀ x ∈ news, x.IsLineAt s.machine.agenda.tick := by
  unfold Session.dispatchNow
  cases loading : s.ensureLoaded e.actor with
  | error _ =>
      refine ⟨[], ?_, rfl, fun x mem => nomatch mem⟩
      rw [List.append_nil]
      exact reached.step (.refuse loading)
  | ok result =>
      have lines := reached.step (.load loading)
      obtain ⟨news, later, same, kinds⟩ := reached_units (fun l => .events l rest ticks)
        (fun l => .handler l.1 l.2) (fun _ _ => rfl) Session.Performs.isLineAt lines
      rw [List.foldl_map] at later same
      rw [Session.ensureLoaded_machine loading] at same kinds
      exact ⟨news, later, same, kinds⟩

theorem reached_events {events : List Event} {ticks : Bool}
    (reached : Reached ⟨s, .events [] events ticks, past⟩) :
    ∃ news, Reached ⟨events.foldl Session.dispatchNow s, .events [] [] ticks, past ++ news⟩ ∧
      (events.foldl Session.dispatchNow s).machine.agenda.tick = s.machine.agenda.tick ∧
      ∀ x ∈ news, x.IsLineAt s.machine.agenda.tick := by
  induction events generalizing s past with
  | nil => exact ⟨[], by rwa [List.append_nil], rfl, fun x mem => nomatch mem⟩
  | cons e events ih =>
      obtain ⟨news, first, same, kinds⟩ := reached_event reached
      obtain ⟨news', others, same', kinds'⟩ := ih first
      rw [List.append_assoc] at others
      rw [same] at same' kinds'
      exact ⟨news ++ news', others, same', List.forall_mem_append.mpr ⟨kinds, kinds'⟩⟩

/-- An event leads to what the session makes of it: lines run at the present tick. -/
theorem reached_dispatchNow (reached : Reached ⟨s, .calm, past⟩) (e : Event) :
    ∃ news, Reached ⟨s.dispatchNow e, .calm, past ++ news⟩ ∧
      ∀ x ∈ news, x.IsLineAt s.machine.agenda.tick := by
  obtain ⟨news, done, -, kinds⟩ := reached_event (reached.step (.event e))
  exact ⟨news, done.step .eventDone, kinds⟩

/-- A tick leads to what the session makes of it: lines run at the old tick, and then bodies and loops
at the new one. -/
theorem reached_tick (reached : Reached ⟨s, .calm, past⟩) :
    ∃ drained worked, Reached ⟨s.tick, .calm, past ++ (drained ++ worked)⟩ ∧
      s.tick.machine.agenda.tick = s.machine.agenda.tick + 1 ∧
      (∀ x ∈ drained, x.IsLineAt s.machine.agenda.tick) ∧
      ∀ x ∈ worked, x.IsDueAt (s.machine.agenda.tick + 1) := by
  obtain ⟨drained, events, same, lines⟩ := reached_events (reached.step .tick)
  obtain ⟨ran, bodies, same', due⟩ := reached_units .delays .delayed (fun _ _ => rfl)
    Session.Performs.isDueAt_delayed (events.step .advance)
  obtain ⟨polled, loops, same'', due'⟩ := reached_units .loops .iteration (fun _ _ => rfl)
    Session.Performs.isDueAt_iteration (bodies.step .poll)
  have done := loops.step .tickDone
  rw [List.append_assoc, List.append_assoc] at done
  have next := congrArg (· + 1) same
  refine ⟨drained, ran ++ polled, done, same''.trans (same'.trans next), lines, ?_⟩
  refine List.forall_mem_append.mpr ⟨?_, ?_⟩
  · intro x mem
    exact next ▸ due x mem
  · intro x mem
    exact (same'.trans next) ▸ due' x mem

/-- If no event waits, the bodies that are due on the next tick are the first thing that a tick comes
to. -/
theorem reached_bodies (reached : Reached ⟨s, .calm, past⟩) (empty : s.inbox = []) :
    Reached ⟨s.atBodies, .delays s.machine.agenda.advance.takeDelays.1, past⟩ := by
  have begun := reached.step .tick
  rw [empty] at begun
  have same : { s with inbox := [] } = s := by rw [← empty]
  rw [same] at begun
  exact begun.step .advance

end Chronicle

/-! ## What a phase has in hand -/

/-- The bodies that have been taken out of the agenda. -/
def Phase.owed : Phase → List Delayed
  | .delays due => due
  | _ => []

/-- The loops that have been taken out of the agenda. -/
def Phase.polls : Phase → List LoopTask
  | .loops due => due
  | _ => []

/-- The least tick for which a loop may wait in the agenda.  While bodies run, it is the present one. -/
def Phase.floor (tick : Nat) : Phase → Nat
  | .delays _ => tick
  | _ => tick + 1

theorem Phase.floor_le (p : Phase) (tick : Nat) : p.floor tick ≤ tick + 1 := by
  cases p with
  | delays due => exact Nat.le_succ tick
  | calm => exact Nat.le_refl _
  | events lines rest ticks => exact Nat.le_refl _
  | loops due => exact Nat.le_refl _

/-- A phase has the next unit in hand, and what is left after it. -/
theorem Phase.first?_eq_some {p p' : Phase} {j : Job} (first : p.first? = some (j, p')) :
    p.owed = j.runs ++ p'.owed ∧ p.polls = j.polls ++ p'.polls ∧ ∀ n, p'.floor n = p.floor n := by
  cases p with
  | calm => cases first
  | events lines rest ticks =>
      cases lines with
      | nil => cases first
      | cons line lines =>
          cases first
          exact ⟨rfl, rfl, fun _ => rfl⟩
  | delays due =>
      cases due with
      | nil => cases first
      | cons d due =>
          cases first
          exact ⟨rfl, rfl, fun _ => rfl⟩
  | loops due =>
      cases due with
      | nil => cases first
      | cons t due =>
          cases first
          exact ⟨rfl, rfl, fun _ => rfl⟩

/-! ## What hosts do to the agenda -/

namespace Session

variable {σ : Type} {s s' : Session σ}

theorem Tends.idle [Archive σ] (h : s.Tends s') : s.machine.Idle s'.machine := by
  cases h with
  | install done => rw [install_machine done]
  | edit done => rw [edit_machine done]
  | setLineEnabled done => rw [setLineEnabled_machine done]
  | load done => rw [ensureLoaded_machine done]
  | flush => rw [flush_machine]
  | around effects archive supply now => exact .of_eq rfl rfl

section Depart

variable [Archive σ] (s : Session σ) (a : ActorId)

/-- A departure drops what the actor has put off. -/
theorem depart_agenda : (s.depart a).2.machine.agenda = s.machine.agenda.dropDelays a := by
  rw [depart_eq]
  show (s.machine.requestStop a).2.agenda.dropDelays a = s.machine.agenda.dropDelays a
  rw [(Machine.Idle.requestStop s.machine a).agenda]

theorem depart_next : (s.depart a).2.machine.signals.next = s.machine.signals.next := by
  have raised (l : List LoopTask) (signals : Signals) :
      (l.foldl (fun signals t => signals.raise t.handle.signal) signals).next = signals.next := by
    induction l generalizing signals with
    | nil => rfl
    | cons t l ih => rw [List.foldl_cons, ih, Signals.next_raise]
  rw [depart_eq]
  exact (raised _ _).trans (Machine.Idle.requestStop s.machine a).next

end Depart

end Session

end Blockwork
