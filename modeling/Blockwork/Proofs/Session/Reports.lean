import Blockwork.Proofs.Machine.Unwinding
import Blockwork.Proofs.Session.Behalf

/-!
# What is reported

A unit of work runs blocks, and afterwards a failure is reported to its actor.  `Session.Accounts` is
the unit up to there: what it has done, whether the loop that was polled has failed by itself, and the
world that it leaves.  What the session makes of it is that world with one message more if anything has
failed, and that world otherwise.

## What is load-bearing

* `Does.error_iff`: a body fails exactly if one of its blocks does, at whatever depth.  So the outcome
  that the session looks at tells of every block.
* `Loop.error_iff_of_closes` is the same for an iteration, whose loop can fail without a block.
-/

namespace Blockwork

open Interpreter

namespace Loop

/-- The failure of a loop's own question or limit after its body. -/
def ownFailure? : Outcome → Step → Option Failure
  | .success, step | .continue_, step => step.outcome.failure?
  | _, _ => none

/-- An iteration fails with its body, or by itself. -/
theorem error_iff_of_closes {f : Frame} {c : Cursor} {o : Outcome} {step : Step} {st st' : RunState}
    (closed : (closes f c o).run st = (step, st')) (e : Failure) :
    step.outcome = .error e ↔ o = .error e ∨ ownFailure? o step = some e := by
  cases o with
  | success | continue_ => simp [ownFailure?, Outcome.failure?_eq_some_iff]
  | break_ | error _ | return_ _ =>
      cases closed
      simp [ownFailure?, Step.outcome]

end Loop

/-- What comes of a unit of work before it is concluded. -/
structure Account where
  /-- To whom a failure is reported. -/
  actor : ActorId
  /-- The line that the report names. -/
  line : String
  /-- What was done. -/
  deeds : List Deed
  /-- The failure of the loop that was polled, if its own question or limit has failed. -/
  own : Option Failure
  /-- The world. -/
  world : World

namespace Account

/-- The failures: those of the blocks, and that of the loop. -/
def failures (a : Account) : List Failure := a.deeds.filterMap Deed.failure? ++ a.own.toList

/-- The world afterwards has one report more if anything has failed, and is the same otherwise. -/
structure Reported (a : Account) (w : World) : Prop where
  /-- One failure is reported, and they are all the same. -/
  failed : ∀ e ∈ a.failures, w = a.world.send a.actor (Session.reportText a.line e)
  /-- Otherwise nothing is. -/
  silent : a.failures = [] → w = a.world

end Account

namespace Session

variable {σ : Type} {s : Session σ}

/-- What comes of a unit of work in a session. -/
inductive Accounts (s : Session σ) : Job → Account → Prop where
  /-- A handler has nothing to run. -/
  | skipped {h : Handler} {e : Event} (nothing : s.startedLine? h e = none) :
      Accounts s (.handler h e) ⟨e.actor, "", [], none, s.machine.world⟩
  /-- A handler runs its line. -/
  | line {h : Handler} {e : Event} {script : Script} {line : Line} {deeds : List Deed}
      {o : Outcome} {st : RunState} (started : s.startedLine? h e = some (script, line))
      (ran : Does s.limits { ((Job.handler h e).opening s script).1.frame with line := line.name }
        (.siblings none line.body)
        ⟨((Job.handler h e).opening s script).1.scope, ((Job.handler h e).opening s script).2⟩ deeds
        (o, none) st) :
      Accounts s (.handler h e) ⟨e.actor, line.name, deeds, none, st.machine.world⟩
  /-- A delayed body runs. -/
  | delayed {d : Delayed} {deeds : List Deed} {o : Outcome} {st : RunState}
      (ran : Does s.limits (s.refreshed d.context).frame (.siblings none d.body)
        ⟨(s.refreshed d.context).scope, s.machine⟩ deeds (o, none) st) :
      Accounts s (.delayed d) ⟨d.actor, d.context.frame.line, deeds, none, st.machine.world⟩
  /-- A loop is found to be over. -/
  | idle {t : LoopTask} (ended : t.isOver s.machine = true) :
      Accounts s (.iteration t) ⟨t.actor, t.context.frame.line, [], none, s.machine.world⟩
  /-- A loop ends before its body. -/
  | closed {t : LoopTask} (live : t.isOver s.machine = false) {o : Outcome} {st : RunState}
      (opened : (Loop.opens (s.refreshed t.context).frame t.cursor).run
        ⟨(s.refreshed t.context).scope, s.machine⟩ = (some o, st)) :
      Accounts s (.iteration t) ⟨t.actor, t.context.frame.line, [], o.failure?, st.machine.world⟩
  /-- The body of a loop runs. -/
  | turn {t : LoopTask} (live : t.isOver s.machine = false) {deeds : List Deed} {o : Outcome} {step : Step}
      {st₁ st₂ st : RunState}
      (opened : (Loop.opens (s.refreshed t.context).frame t.cursor).run
        ⟨(s.refreshed t.context).scope, s.machine⟩ = (none, st₁))
      (inside : Does s.limits (s.refreshed t.context).frame (.siblings none t.body) st₁ deeds (o, none)
        st₂)
      (closed : (Loop.closes (s.refreshed t.context).frame t.cursor o).run st₂ = (step, st)) :
      Accounts s (.iteration t)
        ⟨t.actor, t.context.frame.line, deeds, Loop.ownFailure? o step, st.machine.world⟩

/-- Every unit of work has an account. -/
theorem exists_accounts (s : Session σ) (j : Job) : ∃ a, s.Accounts j a := by
  obtain ⟨x, performed⟩ := s.exists_performs j
  cases performed with
  | skipped nothing => exact ⟨_, .skipped nothing⟩
  | line started ran => exact ⟨_, .line started ran⟩
  | delayed ran => exact ⟨_, .delayed ran⟩
  | idle ended => exact ⟨_, .idle ended⟩
  | turn live ran =>
      cases ran with
      | ended opened => exact ⟨_, .closed live opened⟩
      | entered opened inside closed => exact ⟨_, .turn live opened inside closed⟩

/-! ## Reports -/

/-- A unit whose outcome tells of all failures. -/
theorem reported_of_report {a : Account} {m : Machine} {o : Outcome} (world : m.world = a.world)
    (tells : ∀ e, o = .error e ↔ e ∈ a.failures) :
    a.Reported (report m a.actor a.line o.settled).world where
  failed e failed := by
    obtain rfl := (tells e).mpr failed
    rw [← world]
    rfl
  silent none := by
    cases o with
    | error e => exact absurd ((tells e).mp rfl) (by rw [none]; exact List.not_mem_nil)
    | _ => exact world

/-- A unit of which nothing is reported. -/
theorem reported_of_none {a : Account} (none : a.failures = []) : a.Reported a.world where
  failed e failed := absurd failed (by rw [none]; exact List.not_mem_nil)
  silent _ := rfl

theorem refreshed_line (s : Session σ) (c : Context) : (s.refreshed c).frame.line = c.frame.line := by
  unfold refreshed
  split <;> rfl

/-- A report depends on the world and on nothing else. -/
theorem world_report {m m' : Machine} (same : m.world = m'.world) (a : ActorId) (line : String)
    (o : Outcome) : (report m a line o).world = (report m' a line o).world := by
  cases o with
  | error e => exact congrArg (World.send · a (reportText line e)) same
  | _ => exact same

/-- The world after a unit that is concluded. -/
theorem world_conclude (s : Session σ) (a : ActorId) (c : Context) (o : Outcome) {m : Machine}
    (m' : Machine) (same : m.world = m'.world) :
    (s.conclude a c o m).machine.world = (report m' a c.frame.line o).world := by
  rw [conclude_machine]
  exact world_report same _ _ _

/-- The world after a loop that is over. -/
theorem world_pollLoop_of_over {t : LoopTask} (ended : t.isOver s.machine = true) :
    (s.pollLoop t).machine.world = s.machine.world := by
  rw [← isOver_refreshed] at ended
  unfold pollLoop
  have polled := { t with context := s.refreshed t.context }.polled s.machine s.limits
  generalize LoopTask.poll _ _ _ = result at polled ⊢
  cases polled with
  | idle _ => exact s.world_conclude _ _ .success s.machine rfl
  | goesOn live _ | ends live _ =>
      rw [ended] at live
      cases live

/-- The world after an iteration. -/
theorem world_pollLoop_of_live {t : LoopTask} (live : t.isOver s.machine = false) {step : Step}
    {st : RunState} (ran : { t with context := s.refreshed t.context }.iterate s.machine s.limits =
      (step, st)) :
    (s.pollLoop t).machine.world =
      (report st.machine t.actor t.context.frame.line step.outcome.settled).world := by
  have own : (s.refreshed t.context).frame.actor = t.actor := s.refreshed_actor t.context
  rw [← isOver_refreshed] at live
  rw [← s.refreshed_line, ← own]
  unfold pollLoop
  have polled := { t with context := s.refreshed t.context }.polled s.machine s.limits
  generalize LoopTask.poll _ _ _ = result at polled ⊢
  cases polled with
  | idle ended =>
      rw [live] at ended
      cases ended
  | goesOn _ ran' =>
      cases ran.symm.trans ran'
      exact s.world_conclude _ _ .success st.machine rfl
  | ends _ ran' =>
      cases ran.symm.trans ran'
      exact s.world_conclude _ _ _ st.machine rfl

/-- **Every failure is reported once.** -/
theorem Accounts.reported {j : Job} {a : Account} (h : s.Accounts j a) :
    a.Reported (j.run s).machine.world := by
  cases h with
  | @skipped h e nothing =>
      have same : Job.run s (.handler h e) = s := runHandler_of_skipped nothing
      rw [same]
      exact reported_of_none rfl
  | line started ran =>
      have machine := runHandler_machine started (Run.outcome_eq ran.sound)
      rw [Job.run, machine]
      refine reported_of_report rfl fun e => ?_
      rw [ran.error_iff]
      simp [Account.failures]
  | delayed ran =>
      have machine := runDelayed_machine (Run.outcome_eq ran.sound)
      rw [Job.run, machine, refreshed_line]
      refine reported_of_report rfl fun e => ?_
      rw [ran.error_iff]
      simp [Account.failures]
  | idle ended =>
      rw [Job.run, world_pollLoop_of_over ended]
      exact reported_of_none rfl
  | @closed t live o st opened =>
      have ran : Iterates s.limits _ t.body _ _ [] (.done o) st := .ended opened
      rw [Job.run, world_pollLoop_of_live live ran.sound]
      refine reported_of_report rfl fun e => ?_
      simp [Account.failures, Step.outcome, Outcome.failure?_eq_some_iff]
  | turn live opened inside closed =>
      rw [Job.run, world_pollLoop_of_live live (Iterates.entered opened inside closed).sound]
      refine reported_of_report rfl fun e => ?_
      rw [Loop.error_iff_of_closes closed, inside.error_iff]
      simp [Account.failures]

theorem Accounts.actor_eq {j : Job} {a : Account} (h : s.Accounts j a) : a.actor = j.actor := by
  cases h <;> rfl

end Session

/-- **Failures surface.**  Whatever the blocks, the functions, the context and the machine are: if a block
fails anywhere in a run, in children, in a body, in blocks delayed by less than a tick or in a function,
then no other block runs, the blocks around it end with the same failure, from the inside to the outside,
and so does the run.  A unit of work of a session sends its actor one report if any of its blocks or the
loop that it polls has failed, and none otherwise. -/
theorem failures_surface (σ : Type) :
    (∀ (limits : Limits) (m : Machine) (c : Context) (body : List Block), ∃ deeds o st,
      Does limits c.frame (.siblings none body) ⟨c.scope, m⟩ deeds (o, none) st ∧
      c.runBlocks m limits body = (o, ⟨c.frame, st.scope⟩, st.machine) ∧
      ∀ before g b e after, deeds = before ++ .ran g b (.error e) :: after →
        o = .error e ∧ ∃ calls outer previous s,
          Along limits ⟨c.frame, .siblings none body, ⟨c.scope, m⟩⟩ calls outer
            ⟨g, .block previous b, s⟩ ∧
          (∃ own held s', own <:+ before ∧
            Does limits g (.block previous b) s (own ++ [.ran g b (.error e)]) (.error e, held) s') ∧
          (after.filter fun x => !x.endsLoop) = outer.map (Deed.ended (.error e))) ∧
    (∀ (s : Session σ) (j : Job), (∃ a, s.Accounts j a) ∧
      ∀ a, s.Accounts j a → a.actor = j.actor ∧ a.Reported (j.run s).machine.world) := by
  refine ⟨fun limits m c body => ?_, fun s j => ⟨s.exists_accounts j, fun a accounts =>
    ⟨accounts.actor_eq, accounts.reported⟩⟩⟩
  obtain ⟨deeds, o, st, done, ran⟩ := c.exists_does m limits body
  refine ⟨deeds, o, st, done, ran, fun before g b e after split => ?_⟩
  obtain ⟨calls, outer, previous, s, way, own, cut⟩ := done.cutsShort split
  obtain ⟨same, ends⟩ := cut trivial
  exact ⟨same, calls, outer, previous, s, way, own, ends⟩

end Blockwork
