import Blockwork.Proofs.Machine.Iterations
import Blockwork.Proofs.Machine.Mirrors
import Blockwork.Proofs.Session.Commits
import Blockwork.Proofs.Session.Loops
import Mathlib.Logic.Function.Iterate

/-!
# Waiting for a loop

A loop at once runs to its end in one frame and with one overlay, which only grows.  A loop over ticks
makes one iteration at a time: after each its variables are committed, and before the next a new
snapshot is taken and everything but the transient variables is dropped from the overlay.

`Session.Awaits` relates the two in the middle: a session that waits for its only loop, and the state in
which a run of the same loop at once has made as many iterations.  A tick either passes before the loop
is due (`Awaits.wait`) or makes the next iteration on both sides (`Awaits.poll`), and so the session
settles as the loop at once ends (`Awaits.settles`).

## What is load-bearing

That the overlay is *plain* is what carries a value through commit and snapshot unchanged
(`Context.get?_refresh_commit`); an actor or a location would come back as text.  It is asked of the
overlay at the end of each iteration and not of the variables in general, since whatever is below the
overlay has been a snapshot already.

The loop at once counts down the iterations that are left, and the loop over ticks looks at its limit
each time.  `Loop.cycle_eq_iterate` makes the first into the second.
-/

namespace Blockwork

namespace Session

variable {σ : Type}

/-! ## A session that waits for one loop -/

/-- What a run of blocks for an actor comes to in a session that had the given globals: the outcome is
reported, the variables are committed, and nothing waits any more. -/
structure Settled (s : Session σ) (a : ActorId) (globals : Table String Scalar) (f : Frame)
    (ended : Outcome × RunState) : Prop where
  /-- No loop waits. -/
  loops : s.machine.agenda.loops = []
  /-- No blocks are put off. -/
  delays : s.machine.agenda.delays = []
  /-- No event waits. -/
  inbox : s.inbox = []
  /-- World, side effects and dice are what the run and its report have made of them. -/
  machine : (report ended.2.machine a f.line ended.1.settled).Resembles s.machine
  /-- The globals are what the run has made of them. -/
  stored : (s.scripts.get? a).map Script.globals =
    some (Context.commit ⟨f, ended.2.scope⟩ globals)

/-- The session waits for its loop until some tick, and on that tick it is settled. -/
def Settles [Archive σ] (s : Session σ) (a : ActorId) (globals : Table String Scalar) (f : Frame)
    (ended : Outcome × RunState) : Prop :=
  ∃ n, (∀ k < n, (tick^[k] s).machine.agenda.loops ≠ []) ∧ (tick^[n] s).Settled a globals f ended

/-- The session has a loop that stands where a run of the same loop at once stands in the frame `f` and
the state `st`, and nothing else waits. -/
structure Carries (s : Session σ) (limits : Limits) (a : ActorId) (f : Frame) (st : RunState)
    (t : LoopTask) : Prop where
  /-- The caps are those of the run at once. -/
  limits : s.limits = limits
  /-- No blocks are put off. -/
  delays : s.machine.agenda.delays = []
  /-- No event waits. -/
  inbox : s.inbox = []
  /-- It is a loop of the actor. -/
  own : f.actor = a
  /-- The actor is online. -/
  online : (s.machine.world.actor? a).isSome = true
  /-- The frames resemble each other. -/
  like : f.Resembles t.context.frame
  /-- The loop's iterations are cancelled by its own signal. -/
  cancel : t.context.frame.cancel = t.handle.signal
  /-- The states resemble each other. -/
  state : st.Resembles f t.context.frame ⟨t.context.scope, s.machine⟩

/-- The loop waits for its next iteration, and what it has done so far is committed. -/
structure Awaits (s : Session σ) (limits : Limits) (a : ActorId) (globals : Table String Scalar)
    (f : Frame) (st : RunState) (t : LoopTask) : Prop extends s.Carries limits a f st t where
  /-- It is in the agenda. -/
  loops : s.machine.agenda.loops = [t]
  /-- What it has done so far is committed to the globals it saw, transient ones apart. -/
  stored : ∃ script seen, s.scripts.get? a = some script ∧
    t.context.frame.globals = snapshot seen ∧ script.globals = t.context.commit seen ∧
    ∀ n, isTransient n = true → seen.get? n = globals.get? n

/-- The loop is about to be polled, in a context that has been refreshed from the given script. -/
structure Ready (s : Session σ) (limits : Limits) (a : ActorId) (globals : Table String Scalar)
    (f : Frame) (st : RunState) (t : LoopTask) (script : Script) : Prop
    extends s.Carries limits a f st t where
  /-- It is out of the agenda. -/
  loops : s.machine.agenda.loops = []
  /-- The script is loaded. -/
  loaded : s.scripts.get? a = some script
  /-- The snapshot is the latest. -/
  under : t.context.frame.globals = snapshot script.globals
  /-- Transient globals are as they were. -/
  kept : ∀ n, isTransient n = true → script.globals.get? n = globals.get? n

/-- The machine may change in what no run looks at. -/
theorem Carries.withMachine {s : Session σ} {limits : Limits} {a : ActorId} {f : Frame} {st : RunState}
    {t : LoopTask} (h : s.Carries limits a f st t) {m : Machine} (same : s.machine.Resembles m)
    (signals : m.signals = s.machine.signals) (delays : m.agenda.delays = []) :
    Carries { s with machine := m } limits a f st t := by
  have machine := h.state.machine
  refine { h with
    delays := delays
    online := ?_
    state := ⟨h.state.reads, ⟨machine.world.trans same.world, machine.effects.trans same.effects,
      machine.dice.trans same.dice, machine.contradiction.trans same.contradiction⟩, h.state.live, ?_⟩ }
  · show (m.world.actor? a).isSome = true
    rw [← same.world]
    exact h.online
  · show m.signals.isRaised _ = false
    rw [signals]
    exact h.state.live'

/-! ## Ticks without events and delayed blocks -/

section Ticks

variable {s : Session σ}

/-- The session at the next tick, before anything is done in it. -/
def advanced (s : Session σ) : Session σ :=
  { s with machine := { s.machine with agenda := s.machine.agenda.advance } }

theorem tick_eq_pollLoops [Archive σ] (inbox : s.inbox = []) (delays : s.machine.agenda.delays = []) :
    s.tick = s.advanced.pollLoops := by
  obtain ⟨limits, ⟨world, effects, ⟨tick, loops, delays⟩, slots, signals, dice, contradiction⟩,
    archive, scripts, dirty, handlers, inbox, supply, now⟩ := s
  subst inbox
  subst delays
  rfl

theorem pollLoops_of_none (loops : s.machine.agenda.loops = []) : s.pollLoops = s := by
  obtain ⟨limits, ⟨world, effects, ⟨tick, loops, delays⟩, slots, signals, dice, contradiction⟩,
    archive, scripts, dirty, handlers, inbox, supply, now⟩ := s
  subst loops
  rfl

variable {t : LoopTask} (loops : s.machine.agenda.loops = [t])

include loops

theorem pollLoops_of_early (early : s.machine.agenda.tick < t.nextTick) : s.pollLoops = s := by
  obtain ⟨limits, ⟨world, effects, ⟨tick, loops, delays⟩, slots, signals, dice, contradiction⟩,
    archive, scripts, dirty, handlers, inbox, supply, now⟩ := s
  subst loops
  simp [pollLoops, Agenda.takeLoops, Nat.not_le.mpr early]

theorem pollLoops_of_due (due : t.nextTick ≤ s.machine.agenda.tick) :
    s.pollLoops = { s with machine := { s.machine with
      agenda := { s.machine.agenda with loops := [] } } }.pollLoop t := by
  simp [pollLoops, Agenda.takeLoops, loops, due]

end Ticks

/-- A session in which nothing waits only grows older. -/
theorem Settled.tick [Archive σ] {s : Session σ} {a : ActorId} {globals : Table String Scalar}
    {f : Frame} {ended : Outcome × RunState} (h : s.Settled a globals f ended) :
    s.tick.Settled a globals f ended := by
  rw [tick_eq_pollLoops h.inbox h.delays, pollLoops_of_none (s := s.advanced) h.loops]
  exact ⟨h.loops, h.delays, h.inbox,
    ⟨h.machine.world, h.machine.effects, h.machine.dice, h.machine.contradiction⟩, h.stored⟩

/-- The same report in worlds that are the same. -/
theorem resembles_report {m m' : Machine} (h : m.Resembles m') (a : ActorId) (line : String)
    (o : Outcome) : (report m a line o).Resembles (report m' a line o) := by
  unfold report
  split
  · next e => exact { h with world := congrArg (World.send · a (reportText line e)) h.world }
  · exact h

@[simp] theorem report_agenda (m : Machine) (a : ActorId) (line : String) (o : Outcome) :
    (report m a line o).agenda = m.agenda := by
  unfold report
  split <;> rfl

namespace Awaits

variable {s : Session σ} {limits : Limits} {a : ActorId} {globals : Table String Scalar} {f : Frame}
  {st : RunState} {t : LoopTask}

/-- Before the loop is due, a tick does nothing to it. -/
theorem wait [Archive σ] (h : s.Awaits limits a globals f st t)
    (early : s.machine.agenda.tick + 1 < t.nextTick) :
    s.tick.Awaits limits a globals f st t ∧
      s.tick.machine.agenda.tick = s.machine.agenda.tick + 1 := by
  have same : s.tick = s.advanced := by
    rw [tick_eq_pollLoops h.inbox h.delays]
    exact pollLoops_of_early (s := s.advanced) h.loops early
  rw [same]
  have carries := h.withMachine (m := s.advanced.machine) ⟨rfl, rfl, rfl, rfl⟩ rfl h.delays
  exact ⟨{ carries with loops := h.loops, stored := h.stored }, rfl⟩

/-- Storing plain variables and taking a new snapshot goes unnoticed. -/
theorem ready (h : s.Awaits limits a globals f st t) (plain : t.context.IsPlain)
    (agenda : Agenda) (loops : agenda.loops = []) (delays : agenda.delays = []) :
    ∃ script, s.refreshed t.context = t.context.refresh script.globals ∧
      Ready { s with machine := { s.machine with agenda := agenda } } limits a globals f st
        { t with context := t.context.refresh script.globals } script := by
  obtain ⟨script, seen, loaded, under, committed, kept⟩ := h.stored
  refine ⟨script, ?_, ?_⟩
  · unfold Session.refreshed
    rw [← h.like.actor, h.own, loaded]
  · have carries := h.withMachine (m := { s.machine with agenda := agenda }) ⟨rfl, rfl, rfl, rfl⟩ rfl
      delays
    have noticed : t.context.get? = (t.context.refresh script.globals).get? := by
      rw [committed]
      exact (Context.get?_refresh_commit under plain).symm
    have seenNow : ∀ n, isTransient n = true → script.globals.get? n = globals.get? n := by
      intro n transient
      rw [committed, Context.get?_commit_transient _ _ transient, kept n transient]
    exact { carries with
      like := ⟨h.like.actor, h.like.line, h.like.roles, h.like.target, h.like.functions,
        h.like.callDepth⟩
      state := ⟨h.state.reads.trans noticed, carries.state.machine, h.state.live, h.state.live'⟩
      loops := loops
      loaded := loaded
      under := rfl
      kept := seenNow }

end Awaits

namespace Ready

variable {s : Session σ} {limits : Limits} {a : ActorId} {globals : Table String Scalar} {f : Frame}
  {st : RunState} {t : LoopTask} {script : Script}

theorem isOver (h : s.Ready limits a globals f st t script) : t.isOver s.machine = false := by
  rw [LoopTask.isOver, Bool.or_eq_false_iff]
  constructor
  · rw [← h.cancel]
    exact h.state.live'
  · rw [LoopTask.actor, ← h.like.actor, h.own, Option.isNone_eq_false_iff]
    exact h.online

/-- The iteration that the loop makes is the one that the loop at once makes. -/
theorem mirrored (h : s.Ready limits a globals f st t script) (known : f.Prompt)
    (prompt : Block.Prompt t.body) :
    Run.Mirrored f t.context.frame st ⟨t.context.scope, s.machine⟩
      ((Loop.iterate f (Interpreter.run limits f t.body) t.cursor).run st)
      (t.iterate s.machine limits) :=
  Loop.mirrors_iterate h.like (Interpreter.mirrors_run limits h.like known prompt) t.cursor _ _ h.state

/-- After an iteration the loop waits for the next one. -/
theorem awaits (h : s.Ready limits a globals f st t script) {st₁ st₂ : RunState} {c c' : Cursor}
    (both : Run.Mirrored f t.context.frame st ⟨t.context.scope, s.machine⟩ (Step.next c, st₁)
      (Step.next c', st₂)) (nextTick : Nat) :
    let t' := { t with context := ⟨t.context.frame, st₂.scope⟩, cursor := c', nextTick := nextTick }
    (s.conclude t'.actor t'.context .success
      { st₂.machine with agenda := st₂.machine.agenda.addLoop t' }).Awaits limits a globals f st₁ t' := by
  intro t'
  have own : t'.actor = a := h.like.actor.symm.trans h.own
  rw [own]
  have works := WorksFor.conclude s a t'.context .success
    { st₂.machine with agenda := st₂.machine.agenda.addLoop t' }
  refine {
    limits := works.limits.trans h.limits
    inbox := works.inbox.trans h.inbox
    own := h.own
    like := h.like
    cancel := h.cancel
    delays := ?_
    online := ?_
    state := ?_
    loops := ?_
    stored := ⟨_, script.globals, get?_commit_self h.loaded _ _, h.under, rfl, h.kept⟩ }
  · rw [conclude_machine]
    show st₂.machine.agenda.delays = []
    rw [both.second.agenda]
    exact h.delays
  · rw [conclude_machine]
    exact (both.second.online a).trans h.online
  · rw [conclude_machine]
    exact ⟨both.state.reads, ⟨both.state.machine.world, both.state.machine.effects,
      both.state.machine.dice, both.state.machine.contradiction⟩, both.state.live, both.state.live'⟩
  · rw [conclude_machine]
    show st₂.machine.agenda.loops ++ [t'] = [t']
    rw [both.second.agenda, h.loops]
    rfl

/-- After its last iteration the loop is settled. -/
theorem settled (h : s.Ready limits a globals f st t script) (under : f.globals = snapshot globals)
    {st₁ st₂ : RunState} {o : Outcome}
    (both : Run.Mirrored f t.context.frame st ⟨t.context.scope, s.machine⟩ (Step.done o, st₁)
      (Step.done o, st₂)) (slots : LoopSlots) :
    (s.conclude t.actor ⟨t.context.frame, st₂.scope⟩ o.settled
      { st₂.machine with slots := slots }).Settled a globals f (o, st₁) := by
  have own : t.actor = a := h.like.actor.symm.trans h.own
  rw [own]
  have works := WorksFor.conclude s a ⟨t.context.frame, st₂.scope⟩ o.settled
    { st₂.machine with slots := slots }
  have machine : st₁.machine.Resembles { st₂.machine with slots := slots } :=
    ⟨both.state.machine.world, both.state.machine.effects, both.state.machine.dice,
      both.state.machine.contradiction⟩
  refine ⟨?_, ?_, works.inbox.trans h.inbox, ?_, ?_⟩
  · rw [conclude_machine, report_agenda]
    show st₂.machine.agenda.loops = []
    rw [both.second.agenda]
    exact h.loops
  · rw [conclude_machine, report_agenda]
    show st₂.machine.agenda.delays = []
    rw [both.second.agenda]
    exact h.delays
  · rw [conclude_machine, show Context.frame ⟨t.context.frame, st₂.scope⟩ = t.context.frame from rfl,
      ← h.like.line]
    exact resembles_report machine a f.line o.settled
  · have committed : Context.commit ⟨t.context.frame, st₂.scope⟩ script.globals =
        Context.commit ⟨f, st₁.scope⟩ globals :=
      Context.commit_eq_of_get? h.under under both.state.reads.symm h.kept
    rw [conclude, get?_commit_self h.loaded, Option.map_some, committed]

/-- A poll makes the iteration that the loop at once makes, and ends the loop if that one does. -/
theorem poll (h : s.Ready limits a globals f st t script) (known : f.Prompt)
    (prompt : Block.Prompt t.body) (under : f.globals = snapshot globals) {t₀ : LoopTask}
    (refreshed : { t₀ with context := s.refreshed t₀.context } = t) :
    (∃ c st' t', (Loop.iterate f (Interpreter.run limits f t.body) t.cursor).run st = (.next c, st') ∧
        t'.cursor = c ∧ t'.body = t.body ∧ (s.pollLoop t₀).Awaits limits a globals f st' t') ∨
      ∃ o st', (Loop.iterate f (Interpreter.run limits f t.body) t.cursor).run st = (.done o, st') ∧
        (s.pollLoop t₀).Settled a globals f (o, st') := by
  have mirrored := h.mirrored known prompt
  unfold pollLoop
  rw [refreshed, h.limits]
  have polled := t.polled s.machine limits
  generalize t.poll s.machine limits = result at polled ⊢
  cases ran : (Loop.iterate f (Interpreter.run limits f t.body) t.cursor).run st with
  | mk step st₁ =>
      rw [ran] at mirrored
      cases polled with
      | idle ended =>
          rw [h.isOver] at ended
          cases ended
      | @goesOn _ c st₂ ran' =>
          rw [ran'] at mirrored
          obtain rfl : step = .next c := mirrored.result
          refine .inl ⟨c, st₁, _, rfl, ?_, ?_, h.awaits mirrored (st₂.machine.agenda.tick + t.interval)⟩
          · rfl
          · rfl
      | @ends _ o st₂ ran' =>
          rw [ran'] at mirrored
          obtain rfl : step = .done o := mirrored.result
          exact .inr ⟨o, st₁, rfl, h.settled under mirrored _⟩

end Ready

namespace Awaits

variable {s : Session σ} {limits : Limits} {a : ActorId} {globals : Table String Scalar} {f : Frame}
  {st : RunState} {t : LoopTask}

/-- On the tick for which the loop waits, it makes the iteration that the loop at once makes. -/
theorem poll [Archive σ] (h : s.Awaits limits a globals f st t) (plain : t.context.IsPlain)
    (known : f.Prompt) (prompt : Block.Prompt t.body) (under : f.globals = snapshot globals)
    (due : t.nextTick ≤ s.machine.agenda.tick + 1) :
    (∃ c st' t', (Loop.iterate f (Interpreter.run limits f t.body) t.cursor).run st = (.next c, st') ∧
        t'.cursor = c ∧ t'.body = t.body ∧ s.tick.Awaits limits a globals f st' t') ∨
      ∃ o st', (Loop.iterate f (Interpreter.run limits f t.body) t.cursor).run st = (.done o, st') ∧
        s.tick.Settled a globals f (o, st') := by
  rw [tick_eq_pollLoops h.inbox h.delays, pollLoops_of_due (s := s.advanced) h.loops due]
  obtain ⟨script, refreshed, ready⟩ := h.ready plain { s.advanced.machine.agenda with loops := [] } rfl
    h.delays
  refine ready.poll known prompt under ?_
  exact congrArg (fun c => { t with context := c }) refreshed

/-- What a session comes to after the next tick it comes to. -/
theorem later [Archive σ] (h : s.Awaits limits a globals f st t) {ended : Outcome × RunState}
    (settles : s.tick.Settles a globals f ended) : s.Settles a globals f ended := by
  obtain ⟨n, before, settled⟩ := settles
  refine ⟨n + 1, fun k hk => ?_, settled⟩
  cases k with
  | zero =>
      show s.machine.agenda.loops ≠ []
      rw [h.loops]
      exact List.cons_ne_nil t []
  | succ k => exact before k (Nat.lt_of_succ_lt_succ hk)

/-- **A loop over ticks settles as the loop at once ends.** -/
theorem settles [Archive σ] (h : s.Awaits limits a globals f st t)
    (plain : ∀ n, ∀ t ∈ (tick^[n] s).machine.agenda.loops, t.context.IsPlain)
    (known : f.Prompt) (prompt : Block.Prompt t.body) (under : f.globals = snapshot globals) :
    s.Settles a globals f
      ((Loop.cycle f (Interpreter.run limits f t.body) t.cursor.room t.cursor).run st) := by
  -- by the iterations that are left, and between two of them by the ticks until the next one
  induction left : t.cursor.room using Nat.strongRecOn generalizing s st t with
  | ind room ih =>
  induction wait : t.nextTick - (s.machine.agenda.tick + 1) generalizing s with
  | zero =>
      have due : t.nextTick ≤ s.machine.agenda.tick + 1 := Nat.sub_eq_zero_iff_le.mp wait
      have here : t.context.IsPlain := plain 0 t (h.loops ▸ List.mem_singleton_self t)
      apply h.later
      rw [← left, Loop.cycle_eq_iterate h.state.live]
      show s.tick.Settles a globals f ((Loop.rest f (Interpreter.run limits f t.body)
        ((Loop.iterate f (Interpreter.run limits f t.body) t.cursor).run st).1).run
        ((Loop.iterate f (Interpreter.run limits f t.body) t.cursor).run st).2)
      rcases h.poll here known prompt under due with
        ⟨c, st', t', ran, rfl, same, awaits⟩ | ⟨o, st', ran, settled⟩
      · rw [ran, ← same]
        have fewer : t'.cursor.room < room := by
          rw [← left, Loop.room_of_iterate ran]
          exact Nat.lt_succ_self _
        exact ih _ fewer awaits (fun n => plain (n + 1)) (same ▸ prompt) rfl
      · rw [ran]
        exact ⟨0, fun k hk => absurd hk (Nat.not_lt_zero k), settled⟩
  | succ w ih' =>
      have early : s.machine.agenda.tick + 1 < t.nextTick := by omega
      obtain ⟨awaits, tick⟩ := h.wait early
      exact h.later (ih' awaits (fun n => plain (n + 1)) (by omega))

end Awaits

end Session

end Blockwork
