import Blockwork.Proofs.Machine.Loops
import Blockwork.Proofs.Session.Operations
import Blockwork.Proofs.Session.Units

/-!
# At most one loop for each actor

Over everything a host can do to a session, in any order, the slots are exact: an actor has a slot
exactly if there is one loop of the actor whose signal is not raised, and every other loop of the
actor is stopped for good.

A stop request may come at any time, also in the middle of a tick.  The states are therefore
*moments*: a session together with the loops that have been taken out of the agenda and not yet been
polled.  A host's operations are moves from moment to moment, and so are the single steps that a tick
is made of, so that a stop request fits in between any two of them.
-/

namespace Blockwork

/-! ## Units of work -/

/-- Running blocks in a context acts on behalf of its actor. -/
theorem Context.changes_runBlocks (c : Context) (m : Machine) (limits : Limits) (body : List Block) :
    Relation.ReflTransGen (Machine.Change c.frame.actor) m (c.runBlocks m limits body).2.2 :=
  Interpreter.stays_run limits c.frame body ⟨c.scope, m⟩

theorem Context.changes_runLine (c : Context) (m : Machine) (limits : Limits) (l : Line) :
    Relation.ReflTransGen (Machine.Change c.frame.actor) m (c.runLine m limits l).2.2 := by
  unfold runLine
  split
  · exact changes_runBlocks { c with frame := { c.frame with line := l.name } } m limits l.body
  · exact .refl

/-- A poll acts on behalf of the loop's actor until it puts the loop back or ends it. -/
theorem LoopTask.changes_poll (t : LoopTask) (m : Machine) (limits : Limits) :
    ∃ t' m', t'.token = t.token ∧ Relation.ReflTransGen (Machine.Change t.actor) m m' ∧
      (t.poll m limits = (.pending, t', m') ∨ ∃ o, t.poll m limits = t'.finish m' o) := by
  have changes : Relation.ReflTransGen (Machine.Change t.actor) m (t.iterate m limits).2.machine :=
    (Run.Stays.closed _).iterate t.context.frame (Interpreter.stays_run limits t.context.frame t.body)
      t.cursor
      ⟨t.context.scope, m⟩
  have polled := t.polled m limits
  generalize t.poll m limits = result at polled ⊢
  cases polled with
  | idle _ => exact ⟨t, m, rfl, .refl, .inr ⟨.success, rfl⟩⟩
  | goesOn _ ran =>
      rw [ran] at changes
      refine ⟨_, _, ?_, changes, .inl rfl⟩
      rfl
  | ends _ ran =>
      rw [ran] at changes
      refine ⟨_, _, ?_, changes, .inr ⟨_, rfl⟩⟩
      rfl

/-- A loop whose signal is raised makes no iteration. -/
theorem LoopTask.poll_of_raised {t : LoopTask} {m : Machine} (limits : Limits)
    (raised : m.signals.isRaised t.handle.signal = true) :
    t.poll m limits = t.finish m .success := by
  unfold poll
  rw [if_pos raised]

namespace Session

open Machine (Keeps)

variable {σ : Type} {extra : List Token}

@[simp] theorem commit_machine (s : Session σ) (owner : ActorId) (c : Context) :
    (s.commit owner c).machine = s.machine := by
  unfold commit
  split <;> rfl

theorem conclude_machine (s : Session σ) (a : ActorId) (c : Context) (o : Outcome) (m : Machine) :
    (s.conclude a c o m).machine = report m a c.frame.line o := by
  rw [conclude, commit_machine]

theorem keeps_report (m : Machine) (actor : ActorId) (line : String) (o : Outcome) :
    Keeps extra extra m (report m actor line o) := by
  unfold report
  split
  · exact .of_eq rfl rfl rfl
  · exact .refl extra m

theorem keeps_conclude (s : Session σ) (owner : ActorId) (c : Context) (o : Outcome) (m : Machine) :
    Keeps extra extra m (s.conclude owner c o m).machine := by
  rw [conclude_machine]
  exact keeps_report m owner c.frame.line o

theorem keeps_runHandler (s : Session σ) (h : Handler) (e : Event) :
    Keeps extra extra s.machine (s.runHandler h e).machine := by
  unfold runHandler
  split
  · exact .refl _ _
  split
  · exact .refl _ _
  split
  · rw [commit_machine]
    refine Keeps.trans ?_ (keeps_report _ _ _ _)
    refine Keeps.trans ?_ (Keeps.of_changes (Context.changes_runLine _ _ _ _))
    exact (Keeps.fresh s.machine).trans (.of_eq rfl rfl rfl)
  · exact .refl _ _

theorem keeps_runDelayed (s : Session σ) (d : Delayed) :
    Keeps extra extra s.machine (s.runDelayed d).machine :=
  (Keeps.of_changes (Context.changes_runBlocks _ _ _ _)).trans (s.keeps_conclude _ _ _ _)

/-- A polled loop has gone back to the agenda or is over. -/
theorem keeps_pollLoop (s : Session σ) (t : LoopTask) :
    Keeps (t.token :: extra) extra s.machine (s.pollLoop t).machine := by
  have token : { t with context := s.refreshed t.context }.token = t.token :=
    Prod.ext (s.refreshed_actor t.context) rfl
  unfold pollLoop
  generalize { t with context := s.refreshed t.context } = task at token ⊢
  obtain ⟨t', m, same, changes, result⟩ := task.changes_poll s.machine s.limits
  have ran : Keeps (t.token :: extra) (t.token :: extra) s.machine m := .of_changes changes
  rcases result with pending | ⟨o, finished⟩
  · rw [pending]
    exact (ran.trans (.addLoop (same.trans token) m)).trans (s.keeps_conclude _ _ _ _)
  · rw [finished]
    have released : Keeps (t.token :: extra) extra m (t'.finish m o).2.2 := by
      rw [← token, ← same]
      exact .release t'.token m
    exact (ran.trans released).trans (s.keeps_conclude _ _ _ _)

/-! ## Operations -/

theorem keeps_foldl {α : Type} {step : Session σ → α → Session σ}
    (each : ∀ s a, Keeps extra extra s.machine (step s a).machine) (l : List α) (s : Session σ) :
    Keeps extra extra s.machine (l.foldl step s).machine := by
  induction l generalizing s with
  | nil => exact .refl extra s.machine
  | cons a l ih => exact (each s a).trans (ih _)

/-- The loops that are out of the agenda are polled one after another. -/
theorem keeps_foldl_pollLoop (due : List LoopTask) (s : Session σ) :
    Keeps (due.map LoopTask.token ++ extra) extra s.machine (due.foldl pollLoop s).machine := by
  induction due generalizing s with
  | nil => exact .refl extra s.machine
  | cons t due ih => exact (s.keeps_pollLoop t).trans (ih _)

theorem keeps_runDelays (s : Session σ) : Keeps extra extra s.machine s.runDelays.machine := by
  have taken : Keeps extra extra s.machine
      { s.machine with agenda := s.machine.agenda.takeDelays.2 } := .of_eq rfl rfl rfl
  exact taken.trans (keeps_foldl keeps_runDelayed s.machine.agenda.takeDelays.1
    { s with machine := { s.machine with agenda := s.machine.agenda.takeDelays.2 } })

theorem keeps_pollLoops (s : Session σ) : Keeps extra extra s.machine s.pollLoops.machine :=
  (Keeps.takeLoops s.machine).trans (keeps_foldl_pollLoop s.machine.agenda.takeLoops.1
    { s with machine := { s.machine with agenda := s.machine.agenda.takeLoops.2 } })

section Operations

variable [Archive σ] {s s' : Session σ}

theorem ensureLoaded_machine {owner : ActorId} {found : Bool}
    (h : s.ensureLoaded owner = .ok (found, s')) : s'.machine = s.machine := by
  rcases ensureLoaded_eq_ok_iff.mp h with ⟨_, -, -, rfl⟩ | ⟨-, -, -, rfl⟩ | ⟨_, _, -, -, -, rfl⟩
  · rfl
  · rfl
  · rfl

theorem edit_machine {owner : ActorId} {change : Script → Script}
    (h : s.edit owner change = .ok s') : s'.machine = s.machine := by
  obtain ⟨found, s₁, loading, rfl⟩ := edit_eq_ok_iff.mp h
  have same : s₁.machine = s.machine := ensureLoaded_machine loading
  exact same

omit [Archive σ] in
theorem install_machine {script : Script} (h : s.install script = .ok s') :
    s'.machine = s.machine := by
  unfold install at h
  split at h
  · cases h
  · cases h
    rfl

omit [Archive σ] in
theorem setLineEnabled_machine {owner : ActorId} {line : Nat} {enabled : Bool}
    (h : s.setLineEnabled owner line enabled = .ok s') : s'.machine = s.machine := by
  unfold setLineEnabled at h
  split at h
  · cases h
  split at h
  · cases h
    rfl
  · cases h

theorem keeps_dispatchNow (s : Session σ) (e : Event) :
    Keeps extra extra s.machine (s.dispatchNow e).machine := by
  unfold dispatchNow
  cases loading : s.ensureLoaded e.actor with
  | error _ => exact .refl extra s.machine
  | ok result =>
      rw [← ensureLoaded_machine loading]
      exact keeps_foldl (fun s h => s.keeps_runHandler h e) _ _

theorem keeps_dispatch (s : Session σ) (e : Event) :
    Keeps extra extra s.machine (s.dispatch e).machine := by
  unfold dispatch
  split
  · exact s.keeps_dispatchNow e
  · exact .refl extra s.machine

theorem keeps_tick (s : Session σ) : Keeps extra extra s.machine s.tick.machine := by
  have events : Keeps extra extra s.machine
      (s.inbox.foldl dispatchNow { s with inbox := [] }).machine :=
    keeps_foldl keeps_dispatchNow s.inbox { s with inbox := [] }
  have advanced (s : Session σ) : Keeps extra extra s.machine
      { s with machine := { s.machine with agenda := s.machine.agenda.advance } }.machine :=
    .of_eq rfl rfl rfl
  exact ((events.trans (advanced _)).trans (keeps_runDelays _)).trans (keeps_pollLoops _)

theorem flushOne_machine (f : Flush σ) (owner : ActorId) :
    (flushOne f owner).session.machine = f.session.machine := by
  unfold flushOne
  split
  · rfl
  · dsimp only
    split <;> rfl

theorem flush_machine (s : Session σ) : s.flush.2.machine = s.machine := by
  have each (l : List ActorId) (f : Flush σ) :
      (l.foldl flushOne f).session.machine = f.session.machine := by
    induction l generalizing f with
    | nil => rfl
    | cons owner l ih => rw [List.foldl_cons, ih, flushOne_machine]
  have all := each s.dirty.keys { session := { s with dirty := {} } }
  unfold flush
  dsimp only
  split
  · exact all
  · exact all

end Operations

end Session

/-! ## Moments -/

/-- A session, perhaps in the middle of a tick, with the loops that are out of the agenda and wait to
be polled. -/
structure Moment (σ : Type) where
  /-- Loops to be polled. -/
  due : List LoopTask := []
  /-- The session. -/
  session : Session σ

namespace Moment

variable {σ : Type}

/-- All loops there are. -/
def loops (m : Moment σ) : List LoopTask := m.due ++ m.session.machine.agenda.loops

/-- Whether a loop has been told to stop. -/
def isStopped (m : Moment σ) (t : LoopTask) : Bool :=
  m.session.machine.signals.isRaised t.handle.signal

/-- The loops of an actor that have not been told to stop. -/
def running (m : Moment σ) (a : ActorId) : List LoopTask :=
  m.loops.filter fun t => t.actor == a && !m.isStopped t

/-- The handle in an actor's slot. -/
def slot? (m : Moment σ) (a : ActorId) : Option LoopHandle :=
  m.session.machine.slots.active.get? a

/-- What can happen next: an operation of the host, a stop request from anywhere, a change of the
world, or a step in the middle of a tick. -/
inductive Move [Archive σ] (m : Moment σ) : Moment σ → Prop where
  /-- A script is installed. -/
  | install {script : Script} {s : Session σ} (done : m.session.install script = .ok s) :
      Move m { m with session := s }
  /-- A script is edited. -/
  | edit {owner : ActorId} {change : Script → Script} {s : Session σ}
      (done : m.session.edit owner change = .ok s) : Move m { m with session := s }
  /-- A line is turned on or off. -/
  | setLineEnabled {owner : ActorId} {line : Nat} {enabled : Bool} {s : Session σ}
      (done : m.session.setLineEnabled owner line enabled = .ok s) : Move m { m with session := s }
  /-- An event is handed over. -/
  | dispatch (e : Event) : Move m { m with session := m.session.dispatch e }
  /-- A tick passes. -/
  | tick : Move m { m with session := m.session.tick }
  /-- A loop is told to stop. -/
  | stop (actor : ActorId) : Move m { m with session := (m.session.stopLoop actor).2 }
  /-- An actor departs. -/
  | depart (actor : ActorId) : Move m { m with session := (m.session.depart actor).2 }
  /-- Scripts are saved. -/
  | flush : Move m { m with session := m.session.flush.2 }
  /-- The world changes; actors come and go. -/
  | world (w : World) :
      Move m { m with session := { m.session with machine := { m.session.machine with world := w } } }
  /-- Events are put into the inbox or taken from it. -/
  | inbox (events : List Event) : Move m { m with session := { m.session with inbox := events } }
  /-- A script is loaded for an event. -/
  | load {owner : ActorId} {found : Bool} {s : Session σ}
      (done : m.session.ensureLoaded owner = .ok (found, s)) : Move m { m with session := s }
  /-- A line runs for an event. -/
  | handler (h : Handler) (e : Event) : Move m { m with session := m.session.runHandler h e }
  /-- The next tick begins. -/
  | advance :
      Move m { m with session := { m.session with machine :=
        { m.session.machine with agenda := m.session.machine.agenda.advance } } }
  /-- Delayed blocks come out of the agenda. -/
  | takeDelays :
      Move m { m with session := { m.session with machine :=
        { m.session.machine with agenda := m.session.machine.agenda.takeDelays.2 } } }
  /-- Delayed blocks run. -/
  | delayed (d : Delayed) : Move m { m with session := m.session.runDelayed d }
  /-- The loops that are due come out of the agenda. -/
  | takeLoops :
      Move m { due := m.session.machine.agenda.takeLoops.1 ++ m.due
               session := { m.session with machine :=
                 { m.session.machine with agenda := m.session.machine.agenda.takeLoops.2 } } }
  /-- A loop is polled. -/
  | poll {t : LoopTask} {rest : List LoopTask} (first : m.due = t :: rest) :
      Move m { due := rest, session := m.session.pollLoop t }

/-- The loops of an actor that have not been told to stop are at most one. -/
theorem running_eq {m : Moment σ}
    (registry : Registry (m.loops.map LoopTask.token) m.session.machine.slots
      m.session.machine.signals) {t : LoopTask} (mem : t ∈ m.loops) (live : m.isStopped t = false) :
    m.running t.actor = [t] := by
  have here : t ∈ m.running t.actor := by
    rw [running, List.mem_filter]
    exact ⟨mem, by simp [live]⟩
  -- whoever else is running for the actor has the same slot, hence the same token
  have same : ∀ u ∈ m.running t.actor, u.token = t.token := by
    intro u hu
    rw [running, List.mem_filter, Bool.and_eq_true, Bool.not_eq_true', beq_iff_eq] at hu
    obtain ⟨mem', owner, live'⟩ := hu
    exact registry.eq_of_live (List.mem_map_of_mem mem') (List.mem_map_of_mem mem) owner live' live
  have distinct : ((m.running t.actor).map LoopTask.token).Nodup := by
    have all : (m.loops.map LoopTask.token).Nodup := .of_map _ registry.distinct
    exact all.sublist ((List.filter_sublist).map _)
  -- distinct tokens that are all the same are at most one
  have copies : (m.running t.actor).map LoopTask.token =
      List.replicate (m.running t.actor).length t.token := by
    rw [List.eq_replicate_iff]
    refine ⟨List.length_map _, fun k hk => ?_⟩
    obtain ⟨u, hu, rfl⟩ := List.mem_map.mp hk
    exact same u hu
  rw [copies, List.nodup_replicate] at distinct
  obtain ⟨u, alone⟩ := List.length_eq_one_iff.mp
    (Nat.le_antisymm distinct (List.length_pos_of_mem here))
  rw [alone, List.mem_singleton] at here
  rw [alone, here]

variable [Archive σ]

/-- One move keeps slots and loops in agreement. -/
theorem Move.keeps {m m' : Moment σ} (h : Move m m') :
    Machine.Keeps (m.due.map LoopTask.token) (m'.due.map LoopTask.token) m.session.machine
      m'.session.machine := by
  cases h with
  | install done => rw [Session.install_machine done]
  | edit done => rw [Session.edit_machine done]
  | setLineEnabled done => rw [Session.setLineEnabled_machine done]
  | dispatch e => exact m.session.keeps_dispatch e
  | tick => exact m.session.keeps_tick
  | stop actor => exact .of_change (.stop _)
  | depart actor =>
      rw [Session.depart_eq]
      exact .depart _ actor
  | flush => rw [Session.flush_machine]
  | world w => exact .of_eq rfl rfl rfl
  | inbox events => exact .refl _ _
  | load done => rw [Session.ensureLoaded_machine done]
  | handler h e => exact m.session.keeps_runHandler h e
  | advance => exact .of_eq rfl rfl rfl
  | takeDelays => exact .of_eq rfl rfl rfl
  | delayed d => exact m.session.keeps_runDelayed d
  | takeLoops =>
      rw [List.map_append]
      exact .takeLoops _
  | @poll t rest first =>
      rw [first]
      exact m.session.keeps_pollLoop t

/-- A whole run keeps slots and loops in agreement. -/
theorem keeps_of_moves {m m' : Moment σ} (run : Relation.ReflTransGen Move m m') :
    Machine.Keeps (m.due.map LoopTask.token) (m'.due.map LoopTask.token) m.session.machine
      m'.session.machine := by
  induction run with
  | refl => exact .refl _ _
  | tail _ step ih => exact ih.trans step.keeps

/-- A session at its start. -/
def start (limits : Limits) (world : World) (effects : Effects) (archive : σ) : Moment σ :=
  { session := .start limits world effects archive }

theorem registry_of_reached {limits : Limits} {world : World} {effects : Effects} {archive : σ}
    {m : Moment σ} (reached : Relation.ReflTransGen Move (start limits world effects archive) m)
    (few : m.session.machine.slots.started < UInt32.size) :
    Registry (m.loops.map LoopTask.token) m.session.machine.slots m.session.machine.signals := by
  have initial : Machine.Sound [] (start limits world effects archive).session.machine :=
    fun _ => .empty
  have reached := (keeps_of_moves reached).sound initial few
  rwa [Machine.tokens, ← List.map_append] at reached

/-- **At most one loop for each actor, and the slots are exact.** In every moment that a new session
can reach with fewer starts of loops than there are numbers:

* an actor's slot holds a handle exactly if one loop of the actor has not been told to stop, and it is
  the loop with that handle;
* every other loop of the actor has been told to stop;
* a loop that has been told to stop makes no iteration at any later moment;
* an attempt to start a loop for an actor whose slot is taken fails and leaves everything as it is. -/
theorem loops_exclusive {limits : Limits} {world : World} {effects : Effects} {archive : σ}
    {m : Moment σ} (reached : Relation.ReflTransGen Move (start limits world effects archive) m)
    (few : m.session.machine.slots.started < UInt32.size) :
    (∀ a h, m.slot? a = some h ↔ ∃ t, m.running a = [t] ∧ t.handle = h) ∧
    (∀ t ∈ m.loops, m.isStopped t = true ∨ m.slot? t.actor = some t.handle) ∧
    (∀ t ∈ m.loops, m.isStopped t = true → ∀ m', Relation.ReflTransGen Move m m' →
      ∀ t' ∈ m'.loops, t'.handle = t.handle → ∀ limits,
        t'.poll m'.session.machine limits = t'.finish m'.session.machine .success) ∧
    (∀ (f : Frame) (interval : UInt32) (body : List Block) (c : Cursor) (scope : Scope) h,
      m.slot? f.actor = some h → Loop.spread f interval body c ⟨scope, m.session.machine⟩ =
        (.error (.conflict .loopRunning), ⟨scope, m.session.machine⟩)) := by
  have registry := registry_of_reached reached few
  have holds : ∀ t ∈ m.loops, m.isStopped t = false → m.slot? t.actor = some t.handle :=
    fun t ht live => registry.holds t.token (List.mem_map_of_mem ht) live
  refine ⟨fun a h => ⟨fun found => ?_, ?_⟩, fun t ht => ?_, ?_, ?_⟩
  · obtain ⟨mem, live⟩ := registry.taken a h found
    obtain ⟨t, ht, token⟩ := List.mem_map.mp mem
    obtain ⟨rfl, rfl⟩ := Prod.mk.inj token
    exact ⟨t, running_eq registry ht live, rfl⟩
  · rintro ⟨t, alone, rfl⟩
    have here : t ∈ m.running a := by
      rw [alone]
      exact List.mem_singleton_self t
    rw [running, List.mem_filter, Bool.and_eq_true, Bool.not_eq_true', beq_iff_eq] at here
    obtain ⟨mem, rfl, live⟩ := here
    exact holds t mem live
  · cases live : m.isStopped t with
    | true => exact .inl rfl
    | false => exact .inr (holds t ht live)
  · intro t _ stopped m' later t' _ same limits
    -- a raised signal stays raised, and the handle names the signal
    have raised := (keeps_of_moves later).ages.raised _ stopped
    rw [← same] at raised
    exact LoopTask.poll_of_raised limits raised
  · intro f interval body c scope h found
    have taken : m.session.machine.slots.active.contains f.actor = true :=
      Table.contains_iff.mpr ⟨h, found⟩
    unfold Loop.spread
    rw [Machine.takeSlot_eq_error taken]

/-- A script with a loop that starts when its owner joins and never ends by itself. -/
def loopScript : Script :=
  { ownerId := ⟨1⟩
    ownerName := "ada"
    lastModified := ⟨0, 0⟩
    lines := [{
      name := "loop"
      blocks := [
        ⟨⟨2⟩, .event (some .join), []⟩,
        ⟨⟨3⟩, .repeat_ { mode := some .forever, isAsync := true }, []⟩] }] }

/-- A session with that script. -/
def loopSession : Session MemoryArchive :=
  { Session.start {} {} .refusing ({} : MemoryArchive) with
    scripts := ({} : Table ActorId Script).insert ⟨1⟩ loopScript.rebuildFunctions
    handlers := ({} : Handlers).register loopScript
    dirty := ({} : Table ActorId Unit).insert ⟨1⟩ () }

/-- After the owner has joined, the owner's slot holds the one loop that is running. -/
theorem running_after_join :
    ∃ t, running { session := loopSession.dispatch ⟨.join, ⟨1⟩, {}, {}⟩ } ⟨1⟩ = [t] ∧
      t.handle = ⟨0, 1⟩ := by
  have valid : loopScript.problems = [] := by decide +kernel
  have installed : (start {} {} .refusing ({} : MemoryArchive)).session.install loopScript =
      .ok loopSession := by
    unfold Session.install Script.validate
    rw [valid]
    rfl
  have reached := Relation.ReflTransGen.single (Move.install installed)
    |>.tail (.dispatch ⟨.join, ⟨1⟩, {}, {}⟩)
  exact ((loops_exclusive reached (by decide)).1 ⟨1⟩ ⟨0, 1⟩).mp rfl

end Moment

end Blockwork
