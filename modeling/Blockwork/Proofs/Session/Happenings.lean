import Blockwork.Proofs.Machine.Timing
import Blockwork.Proofs.Session.Commits
import Blockwork.Proofs.Session.Loops

/-!
# What happens in a session

The history of a session is the list of what has happened in it: units of work, each with the tick at
which it was done and the deeds that came of it, and departures.  `Session.Performs` says what happens
when a unit of work is done.  It is the session's own work as a relation, with what the work itself does
not tell: what a line, a body or an iteration has put off, and what has become of a loop.

## What is load-bearing

`Performs.moves` is the only place where units of work are opened up: the agenda afterwards is the agenda
before, what the deeds put on it, and the loop that was polled if it goes on.
-/

namespace Blockwork

/-- What becomes of a loop that is polled. -/
inductive Fate where
  /-- It has made an iteration and goes on. -/
  | goesOn
  /-- It has come to its end. -/
  | ends
  /-- It had been stopped, or its actor was gone, and made no iteration. -/
  | idle
deriving DecidableEq

/-- What a step of a loop means for it. -/
def Fate.of : Step → Fate
  | .next _ => .goesOn
  | .done _ => .ends

/-- Something that happens in a session. -/
inductive Happening where
  /-- A handler's line is started by an event. -/
  | line (tick : Nat) (h : Handler) (e : Event) (deeds : List Deed)
  /-- A delayed body runs. -/
  | delayed (tick : Nat) (d : Delayed) (deeds : List Deed)
  /-- A loop is polled. -/
  | turn (tick : Nat) (t : LoopTask) (deeds : List Deed) (fate : Fate)
  /-- An actor departs, and the actor's delayed bodies are dropped. -/
  | departure (tick : Nat) (actor : ActorId) (dropped : List Delayed)

namespace Happening

/-- The tick at which it happens. -/
def tick : Happening → Nat
  | .line n _ _ _ | .delayed n _ _ | .turn n _ _ _ | .departure n _ _ => n

/-- What is done. -/
def deeds : Happening → List Deed
  | .line _ _ _ l | .delayed _ _ l | .turn _ _ l _ => l
  | .departure _ _ _ => []

/-- The delayed bodies that run. -/
def ran : Happening → List Delayed
  | .delayed _ d _ => [d]
  | _ => []

/-- The loops that are polled. -/
def polled : Happening → List LoopTask
  | .turn _ t _ _ => [t]
  | _ => []

/-- The delayed bodies that are dropped. -/
def dropped : Happening → List Delayed
  | .departure _ _ l => l
  | _ => []

/-- A line is started, at the given tick. -/
def IsLineAt (n : Nat) : Happening → Prop
  | .line m _ _ _ => m = n
  | _ => False

/-- A body runs or a loop is polled, at the given tick. -/
def IsDueAt (n : Nat) : Happening → Prop
  | .delayed m _ _ | .turn m _ _ _ => m = n
  | _ => False

/-- The loops that go back to the agenda. -/
def Returns : Happening → List LoopTask → Prop
  | .turn n t _ .goesOn, back => ∃ u : LoopTask, back = [u] ∧ u.handle = t.handle ∧
      u.interval = t.interval ∧ u.cursor.iteration = t.cursor.iteration + 1 ∧
      u.nextTick = n + t.interval
  | _, back => back = []

/-- What a unit of work does to the machine: what its deeds put on the agenda, and then the loop that
goes back. -/
structure Moves (h : Happening) (back : List LoopTask) (m m' : Machine) : Prop where
  /-- It happens now. -/
  now : h.tick = m.agenda.tick
  /-- Loops go back if they go on. -/
  returns : h.Returns back
  /-- The rest are deeds. -/
  schedules : ∃ m₁, Schedules h.deeds m m₁ ∧ m₁.signals.next = m'.signals.next ∧
    m'.agenda = { m₁.agenda with loops := m₁.agenda.loops ++ back }

namespace Moves

variable {h : Happening} {back : List LoopTask} {m m' : Machine}

theorem of_schedules (now : h.tick = m.agenda.tick) (returns : h.Returns [])
    (schedules : Schedules h.deeds m m') : h.Moves [] m m' :=
  ⟨now, returns, m', schedules, rfl, by rw [List.append_nil]⟩

theorem tick (moves : h.Moves back m m') : m'.agenda.tick = m.agenda.tick := by
  obtain ⟨m₁, schedules, -, after⟩ := moves.schedules
  rw [after]
  exact schedules.tick

theorem delays (moves : h.Moves back m m') :
    m'.agenda.delays = m.agenda.delays ++ Deed.bodies h.deeds := by
  obtain ⟨m₁, schedules, -, after⟩ := moves.schedules
  rw [after]
  exact schedules.delays

theorem loops (moves : h.Moves back m m') :
    m'.agenda.loops = m.agenda.loops ++ Deed.loops h.deeds ++ back := by
  obtain ⟨m₁, schedules, -, after⟩ := moves.schedules
  rw [after]
  exact congrArg (· ++ back) schedules.loops

end Moves

end Happening

/-- The body that a unit of work runs. -/
def Job.runs : Job → List Delayed
  | .delayed d => [d]
  | _ => []

/-- The loop that a unit of work polls. -/
def Job.polls : Job → List LoopTask
  | .iteration t => [t]
  | _ => []

namespace Session

variable {σ : Type} {s s' : Session σ}

/-- The script and the line that a handler runs for an event, if nothing is against it. -/
def startedLine? (s : Session σ) (h : Handler) (e : Event) : Option (Script × Line) :=
  match s.scripts.get? h.owner with
  | none => none
  | some script =>
    match script.lines[h.line]? with
    | none => none
    | some line =>
      if script.enabled && line.enabled && isBoundHere s.machine.world script e.actor then
        some (script, line)
      else none

/-- What happens when a unit of work is done in a session. -/
inductive Performs (s : Session σ) : Job → Happening → Prop where
  /-- A handler has nothing to run. -/
  | skipped {h : Handler} {e : Event} (nothing : s.startedLine? h e = none) :
      Performs s (.handler h e) (.line s.machine.agenda.tick h e [])
  /-- A handler runs its line. -/
  | line {h : Handler} {e : Event} {script : Script} {line : Line} {deeds : List Deed}
      {o : Outcome} {st : RunState} (started : s.startedLine? h e = some (script, line))
      (ran : Does s.limits { ((Job.handler h e).opening s script).1.frame with line := line.name }
        (.siblings none line.body)
        ⟨((Job.handler h e).opening s script).1.scope, ((Job.handler h e).opening s script).2⟩ deeds
        (o, none) st) :
      Performs s (.handler h e) (.line s.machine.agenda.tick h e deeds)
  /-- A delayed body runs. -/
  | delayed {d : Delayed} {deeds : List Deed} {o : Outcome} {st : RunState}
      (ran : Does s.limits (s.refreshed d.context).frame (.siblings none d.body)
        ⟨(s.refreshed d.context).scope, s.machine⟩ deeds (o, none) st) :
      Performs s (.delayed d) (.delayed s.machine.agenda.tick d deeds)
  /-- A loop is found to be over. -/
  | idle {t : LoopTask} (ended : t.isOver s.machine = true) :
      Performs s (.iteration t) (.turn s.machine.agenda.tick t [] .idle)
  /-- A loop makes an iteration, or comes to its end. -/
  | turn {t : LoopTask} (live : t.isOver s.machine = false) {deeds : List Deed} {step : Step}
      {st : RunState}
      (ran : Iterates s.limits (s.refreshed t.context).frame t.body t.cursor
        ⟨(s.refreshed t.context).scope, s.machine⟩ deeds step st) :
      Performs s (.iteration t) (.turn s.machine.agenda.tick t deeds (.of step))

/-- Every unit of work happens in some way. -/
theorem exists_performs (s : Session σ) (j : Job) : ∃ h, Performs s j h := by
  cases j with
  | handler h e =>
      cases started : s.startedLine? h e with
      | none => exact ⟨_, .skipped started⟩
      | some found =>
          obtain ⟨script, line⟩ := found
          obtain ⟨deeds, o, held, st, ran⟩ := ends s.limits
            { ((Job.handler h e).opening s script).1.frame with line := line.name }
            (.siblings none line.body)
            ⟨((Job.handler h e).opening s script).1.scope, ((Job.handler h e).opening s script).2⟩
          obtain rfl := ran.held_siblings
          exact ⟨_, .line started ran⟩
  | delayed d =>
      obtain ⟨deeds, o, held, st, ran⟩ := ends s.limits (s.refreshed d.context).frame
        (.siblings none d.body) ⟨(s.refreshed d.context).scope, s.machine⟩
      obtain rfl := ran.held_siblings
      exact ⟨_, .delayed ran⟩
  | iteration t =>
      cases finding : t.isOver s.machine with
      | true => exact ⟨_, .idle finding⟩
      | false =>
          obtain ⟨deeds, step, st, ran⟩ := Iterates.exists_of s.limits (s.refreshed t.context).frame
            t.body t.cursor ⟨(s.refreshed t.context).scope, s.machine⟩
          exact ⟨_, .turn finding ran⟩

/-- What happens is what the unit of work was for. -/
theorem Performs.of_job {j : Job} {x : Happening} (h : s.Performs j x) :
    x.tick = s.machine.agenda.tick ∧ x.ran = j.runs ∧ x.dropped = [] ∧ x.polled = j.polls := by
  cases h with
  | skipped _ => exact ⟨rfl, rfl, rfl, rfl⟩
  | line _ _ => exact ⟨rfl, rfl, rfl, rfl⟩
  | delayed _ => exact ⟨rfl, rfl, rfl, rfl⟩
  | idle _ => exact ⟨rfl, rfl, rfl, rfl⟩
  | turn _ _ => exact ⟨rfl, rfl, rfl, rfl⟩

theorem Performs.isLineAt {h : Handler} {e : Event} {x : Happening}
    (p : s.Performs (.handler h e) x) : x.IsLineAt s.machine.agenda.tick := by
  cases p with
  | skipped _ => rfl
  | line _ _ => rfl

theorem Performs.isDueAt_delayed {d : Delayed} {x : Happening} (p : s.Performs (.delayed d) x) :
    x.IsDueAt s.machine.agenda.tick := by
  cases p with
  | delayed _ => rfl

theorem Performs.isDueAt_iteration {t : LoopTask} {x : Happening}
    (p : s.Performs (.iteration t) x) : x.IsDueAt s.machine.agenda.tick := by
  cases p with
  | idle _ => rfl
  | turn _ _ => rfl

/-! ## What a unit of work does to the agenda -/

theorem report_idle (m : Machine) (actor : ActorId) (line : String) (o : Outcome) :
    m.Idle (report m actor line o) := by
  unfold report
  split
  · exact .world m _
  · exact .refl m

theorem startedLine?_eq_some_iff {h : Handler} {e : Event} {script : Script} {line : Line} :
    s.startedLine? h e = some (script, line) ↔ s.scripts.get? h.owner = some script ∧
      script.lines[h.line]? = some line ∧
      (script.enabled && line.enabled && isBoundHere s.machine.world script e.actor) = true := by
  unfold startedLine?
  cases s.scripts.get? h.owner with
  | none => simp
  | some script' =>
      cases found : script'.lines[h.line]? with
      | none =>
          simp only [found, reduceCtorEq, Option.some.injEq, false_iff, not_and]
          rintro rfl
          simp [found]
      | some line' =>
          dsimp only
          grind

theorem runHandler_of_skipped {h : Handler} {e : Event} (nothing : s.startedLine? h e = none) :
    s.runHandler h e = s := by
  unfold runHandler
  cases loaded : s.scripts.get? h.owner with
  | none => rfl
  | some script =>
      dsimp only
      cases found : script.lines[h.line]? with
      | none => rfl
      | some line =>
          refine if_neg fun on => ?_
          rw [startedLine?_eq_some_iff.mpr ⟨loaded, found, on⟩] at nothing
          cases nothing

/-- The machine after a line that runs. -/
theorem runHandler_machine {h : Handler} {e : Event} {script : Script} {line : Line} {o : Outcome}
    {st : RunState} (started : s.startedLine? h e = some (script, line))
    (ran : (Interpreter.run s.limits
      { ((Job.handler h e).opening s script).1.frame with line := line.name } line.body).run
      ⟨((Job.handler h e).opening s script).1.scope, ((Job.handler h e).opening s script).2⟩ =
        (o, st)) :
    (s.runHandler h e).machine = report st.machine e.actor line.name o.settled := by
  obtain ⟨loaded, found, on⟩ := startedLine?_eq_some_iff.mp started
  have enabled : line.enabled = true := by
    rw [Bool.and_eq_true, Bool.and_eq_true] at on
    exact on.1.2
  unfold runHandler
  rw [loaded]
  dsimp only
  rw [found]
  dsimp only
  rw [if_pos on, commit_machine]
  have lined : ((Job.handler h e).opening s script).1.runLine ((Job.handler h e).opening s script).2
      s.limits line = (o.settled,
        ⟨{ ((Job.handler h e).opening s script).1.frame with line := line.name }, st.scope⟩,
        st.machine) := by
    simp only [Context.runLine, Context.runBlocks, Context.exec, enabled, if_true, ran]
  exact congrArg (fun r => report r.2.2 e.actor r.2.1.frame.line r.1) lined

/-- A delayed body runs, and its unit is concluded for the actor of its context. -/
theorem runDelayed_eq {d : Delayed} {o : Outcome} {st : RunState}
    (ran : (Interpreter.run s.limits (s.refreshed d.context).frame d.body).run
      ⟨(s.refreshed d.context).scope, s.machine⟩ = (o, st)) :
    s.runDelayed d = s.conclude (s.refreshed d.context).frame.actor
      ⟨(s.refreshed d.context).frame, st.scope⟩ o.settled st.machine := by
  have result : { d with context := s.refreshed d.context }.run s.machine s.limits =
      (o.settled, { d with context := ⟨(s.refreshed d.context).frame, st.scope⟩ }, st.machine) := by
    simp only [Delayed.run, Context.runBlocks, Context.exec, ran]
  rw [runDelayed, result]
  rfl

/-- The machine after a delayed body. -/
theorem runDelayed_machine {d : Delayed} {o : Outcome} {st : RunState}
    (ran : (Interpreter.run s.limits (s.refreshed d.context).frame d.body).run
      ⟨(s.refreshed d.context).scope, s.machine⟩ = (o, st)) :
    (s.runDelayed d).machine =
      report st.machine d.actor (s.refreshed d.context).frame.line o.settled := by
  have own : (s.refreshed d.context).frame.actor = d.actor := s.refreshed_actor d.context
  rw [runDelayed_eq ran, conclude_machine, own]

/-- A loop that gives up its slot leaves the agenda. -/
theorem conclude_finish_idle (s : Session σ) (t : LoopTask) (m : Machine) (o : Outcome) :
    m.Idle (s.conclude t.actor t.context o (t.finish m o).2.2).machine := by
  have released : m.Idle (t.finish m o).2.2 := .of_eq rfl rfl
  rw [conclude_machine]
  exact released.trans (report_idle _ _ _ _)

theorem isOver_refreshed (t : LoopTask) :
    { t with context := s.refreshed t.context }.isOver s.machine = t.isOver s.machine := by
  rw [LoopTask.isOver, LoopTask.isOver, LoopTask.actor, LoopTask.actor, refreshed_actor]

/-- A loop that is over makes no iteration. -/
theorem pollLoop_idle {t : LoopTask} (ended : t.isOver s.machine = true) :
    s.machine.Idle (s.pollLoop t).machine := by
  rw [← isOver_refreshed] at ended
  unfold pollLoop
  generalize { t with context := s.refreshed t.context } = task at ended ⊢
  have polled := task.polled s.machine s.limits
  generalize task.poll s.machine s.limits = result at polled ⊢
  cases polled with
  | idle _ => exact s.conclude_finish_idle task s.machine .success
  | goesOn live _ =>
      rw [ended] at live
      cases live
  | ends live _ =>
      rw [ended] at live
      cases live

/-- A loop after an iteration, as it goes back to the agenda. -/
def returned (s : Session σ) (t : LoopTask) (c : Cursor) (st : RunState) : LoopTask :=
  { t with
    context := ⟨(s.refreshed t.context).frame, st.scope⟩
    cursor := c
    nextTick := st.machine.agenda.tick + t.interval }

/-- A loop that goes on goes back to the agenda. -/
theorem pollLoop_of_next {t : LoopTask} (live : t.isOver s.machine = false) {deeds : List Deed}
    {c : Cursor} {st : RunState}
    (ran : Iterates s.limits (s.refreshed t.context).frame t.body t.cursor
      ⟨(s.refreshed t.context).scope, s.machine⟩ deeds (.next c) st) :
    (s.pollLoop t).machine =
      { st.machine with agenda := st.machine.agenda.addLoop (s.returned t c st) } := by
  have iterated : { t with context := s.refreshed t.context }.iterate s.machine s.limits =
      (.next c, st) := ran.sound
  rw [← isOver_refreshed] at live
  have polled := { t with context := s.refreshed t.context }.polled s.machine s.limits
  unfold pollLoop
  generalize LoopTask.poll _ _ _ = result at polled ⊢
  cases polled with
  | idle ended =>
      rw [live] at ended
      cases ended
  | goesOn _ ran' =>
      obtain ⟨same, rfl⟩ := Prod.mk.inj (iterated.symm.trans ran')
      cases same
      exact s.conclude_machine _ _ _ _
  | ends _ ran' => cases (Prod.mk.inj (iterated.symm.trans ran')).1

/-- A loop that comes to its end leaves the agenda. -/
theorem pollLoop_of_done {t : LoopTask} (live : t.isOver s.machine = false) {deeds : List Deed}
    {o : Outcome} {st : RunState}
    (ran : Iterates s.limits (s.refreshed t.context).frame t.body t.cursor
      ⟨(s.refreshed t.context).scope, s.machine⟩ deeds (.done o) st) :
    st.machine.Idle (s.pollLoop t).machine := by
  have iterated : { t with context := s.refreshed t.context }.iterate s.machine s.limits =
      (.done o, st) := ran.sound
  rw [← isOver_refreshed] at live
  have polled := { t with context := s.refreshed t.context }.polled s.machine s.limits
  unfold pollLoop
  generalize LoopTask.poll _ _ _ = result at polled ⊢
  cases polled with
  | idle ended =>
      rw [live] at ended
      cases ended
  | goesOn _ ran' => cases (Prod.mk.inj (iterated.symm.trans ran')).1
  | ends _ ran' =>
      obtain ⟨same, rfl⟩ := Prod.mk.inj (iterated.symm.trans ran')
      cases same
      exact s.conclude_finish_idle { t with context := ⟨(s.refreshed t.context).frame, st.scope⟩ }
        st.machine _

/-- A loop that is not over makes an iteration and goes back, or comes to its end. -/
theorem pollLoop_moves {t : LoopTask} (live : t.isOver s.machine = false) {deeds : List Deed}
    {step : Step} {st : RunState}
    (ran : Iterates s.limits (s.refreshed t.context).frame t.body t.cursor
      ⟨(s.refreshed t.context).scope, s.machine⟩ deeds step st) :
    ∃ back, (Happening.turn s.machine.agenda.tick t deeds (.of step)).Moves back s.machine
      (s.pollLoop t).machine := by
  have schedules : Schedules deeds s.machine st.machine := ran.schedules
  cases step with
  | next c =>
      have next : c.iteration = t.cursor.iteration + 1 := congrArg Cursor.iteration ran.eq_next
      have onTime : (s.returned t c st).nextTick = s.machine.agenda.tick + t.interval :=
        congrArg (· + t.interval) schedules.tick
      rw [pollLoop_of_next live ran]
      exact ⟨[s.returned t c st], rfl, ⟨_, rfl, rfl, rfl, next, onTime⟩, st.machine, schedules, rfl,
        rfl⟩
  | done o => exact ⟨[], .of_schedules rfl rfl (schedules.trans_idle (pollLoop_of_done live ran))⟩

theorem Performs.moves {j : Job} {h : Happening} (p : Performs s j h) :
    ∃ back, h.Moves back s.machine (j.run s).machine := by
  cases p with
  | @skipped h e nothing =>
      have same : Job.run s (.handler h e) = s := runHandler_of_skipped nothing
      rw [same]
      exact ⟨[], .of_schedules rfl rfl (.of_idle (.refl _) rfl rfl)⟩
  | @line h e script line deeds o st started ran =>
      have machine := runHandler_machine started (Run.outcome_eq ran.sound)
      refine ⟨[], .of_schedules rfl rfl ?_⟩
      show Schedules deeds s.machine (s.runHandler h e).machine
      rw [machine]
      have opened : Schedules [] s.machine ((Job.handler h e).opening s script).2 :=
        .of_agenda_eq rfl (Nat.le_succ _) rfl rfl
      exact (opened.trans ran.schedules).trans_idle (report_idle _ _ _ _)
  | @delayed d deeds o st ran =>
      refine ⟨[], .of_schedules rfl rfl ?_⟩
      show Schedules deeds s.machine (s.runDelayed d).machine
      rw [runDelayed_machine (Run.outcome_eq ran.sound)]
      have body : Schedules deeds s.machine st.machine := ran.schedules
      exact body.trans_idle (report_idle _ _ _ _)
  | idle ended => exact ⟨[], .of_schedules rfl rfl (.of_idle (pollLoop_idle ended) rfl rfl)⟩
  | turn live ran => exact pollLoop_moves live ran

end Session

end Blockwork
