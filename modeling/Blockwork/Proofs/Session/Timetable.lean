import Blockwork.Proofs.Session.Delays
import Blockwork.Proofs.Session.Polls

/-!
# The timetable of a session

Whatever a host does, and whenever stop requests, events and changes of the world come in between,
delayed bodies run on the tick for which they were put off, and loops make their iterations on the ticks
for which they were handed over.  It makes no difference where the block was executed: between ticks,
while waiting events are handed over, in another delayed body or in an iteration of another loop.

The result is put together from the two accounts, `BodiesOnTime` and `LoopsOnTime`, both of which hold of
a new session and are kept by every step.
-/

namespace Blockwork

open Interpreter

namespace Chronicle

section Reached

variable {σ : Type} [Archive σ] {c : Chronicle σ}

theorem Reached.bodiesOnTime (reached : c.Reached) : c.BodiesOnTime := by
  induction reached with
  | start limits world effects archive =>
      exact {
        due := fun _ mem => nomatch mem
        once := .refl _
        onTime := fun _ _ _ mem => nomatch mem
        now := fun _ mem => nomatch mem
        later := fun _ mem => nomatch mem
        departed := fun _ _ _ mem => nomatch mem }
  | step _ next ih => exact ih.proceeds next

theorem Reached.tracked (reached : c.Reached) : c.Tracked := by
  induction reached with
  | start limits world effects archive =>
      exact {
        schedule := fun _ mem => nomatch mem
        now := fun _ mem => nomatch mem
        later := fun _ mem => nomatch mem
        spaced := fun _ mem => nomatch mem
        waiting := fun _ mem => nomatch mem
        polled := fun _ mem => nomatch mem
        begun := fun _ mem => nomatch mem }
  | step _ next ih => exact ih.proceeds next

/-- **Exact ticks.** In every course of a session, at every moment:

* every body that was put off has run once, on the tick for which it was put off, or was dropped when its
  actor departed, or still waits for a later tick;
* every loop that was handed over has made its iterations on the ticks of its schedule and on no others,
  and is over or waits for the next of these ticks.

The deeds tell of every delay of at least one tick and of every loop over ticks that finds its actor's
slot free; the whole ticks of a wait are its floor.  And the course of a session is that of its own
operations: a calm session can be ticked and be given events, lines run at the tick that was, and bodies
and loops at the one that is reached. -/
theorem on_schedule (reached : c.Reached) :
    c.BodiesOnTime ∧ c.LoopsOnTime ∧
    (∀ limits f previous children ticks st deeds r st' wait,
      Does limits f (.instruction previous children (.delay ticks)) st deeds r st' →
      Scene.number ⟨⟨f, st.scope⟩, st.machine.world⟩ ticks "ticks" = .ok wait → 0 < wholeTicks wait →
      deeds = [.postponed wait (delayedBy f wait children st)]) ∧
    (∀ limits f previous children loop st deeds r st' cursor handle m,
      Does limits f (.instruction previous children (.repeat_ loop)) st deeds r st' →
      loop.isAsync = true →
      Cursor.start ⟨⟨f, st.scope⟩, st.machine.world⟩ limits loop = .ok cursor →
      st.machine.takeSlot f.actor = .ok (handle, m) →
      deeds = [.spread loop (spreadTask f loop children cursor handle st)]) ∧
    (∀ wait m q, Binary.read wait = .finite false m q →
      (0 < wholeTicks wait ↔ (1 : ℚ) ≤ m * 2 ^ q) ∧
      wholeTicks wait = min ⌊(m : ℚ) * 2 ^ q⌋₊ Agenda.lastTick) ∧
    (c.phase = .calm →
      (∃ drained worked, Reached ⟨c.session.tick, .calm, c.history ++ (drained ++ worked)⟩ ∧
        c.session.tick.machine.agenda.tick = c.agenda.tick + 1 ∧
        (∀ x ∈ drained, x.IsLineAt c.agenda.tick) ∧ ∀ x ∈ worked, x.IsDueAt (c.agenda.tick + 1)) ∧
      ∀ e, ∃ news, Reached ⟨c.session.dispatchNow e, .calm, c.history ++ news⟩ ∧
        ∀ x ∈ news, x.IsLineAt c.agenda.tick) := by
  refine ⟨reached.bodiesOnTime, reached.tracked.toLoopsOnTime, ?_, ?_, ?_, ?_⟩
  · intro limits f previous children ticks st deeds r st' wait does resolved long
    exact does.of_delay resolved long
  · intro limits f previous children loop st deeds r st' cursor handle m does isAsync started taken
    exact does.of_repeat isAsync started taken
  · intro wait m q reading
    exact ⟨wholeTicks_pos_iff reading, wholeTicks_of_finite reading⟩
  · intro calm
    obtain ⟨session, phase, history⟩ := c
    cases calm
    exact ⟨reached_tick reached, reached_dispatchNow reached⟩

end Reached

/-! ## A reminder -/

/-- A script with a line that says something two ticks after its owner has joined. -/
def reminder : Script :=
  { ownerId := ⟨1⟩
    ownerName := "ada"
    lastModified := ⟨0, 0⟩
    lines := [{
      name := "remind"
      blocks := [
        ⟨⟨2⟩, .event (some .join), []⟩,
        ⟨⟨3⟩, .delay (some (.text "2")), [⟨⟨4⟩, .message (some (.text "tea")), []⟩]⟩] }] }

/-- A session with the script. -/
def reminding : Session MemoryArchive :=
  { Session.start {} {} .refusing ({} : MemoryArchive) with
    scripts := ({} : Table ActorId Script).insert ⟨1⟩ reminder.rebuildFunctions
    handlers := ({} : Handlers).register reminder
    dirty := ({} : Table ActorId Unit).insert ⟨1⟩ () }

/-- The owner comes online. -/
def arrival : Event := { kind := .join, actor := ⟨1⟩ }

theorem reached_reminding : Reached ⟨reminding, .calm, []⟩ := by
  have valid : reminder.problems = [] := by decide +kernel
  have installed : (Session.start {} {} .refusing ({} : MemoryArchive)).install reminder =
      .ok reminding := Session.install_eq_ok valid
  exact .step (.start {} {} .refusing {}) (.tend (.install installed))

/-- On the second tick after the owner has joined, the reminder is given. -/
theorem on_schedule_reminding : ∃ past d deeds,
    Reached ⟨(reminding.dispatchNow arrival).tick.tick, .calm, past⟩ ∧ .delayed 2 d deeds ∈ past := by
  obtain ⟨news, first, lines⟩ := reached_dispatchNow reached_reminding arrival
  obtain ⟨drained, worked, second, next, lines', due'⟩ := reached_tick first
  obtain ⟨drained', worked', third, last, lines'', due''⟩ := reached_tick second
  have tick : (reminding.dispatchNow arrival).machine.agenda.tick = 0 := by decide +kernel
  have waits : (reminding.dispatchNow arrival).machine.agenda.delays.map Delayed.due = [2] := by
    decide +kernel
  rw [next, tick] at last lines'' due''
  rw [tick] at lines' due'
  have kinds : ∀ x ∈ [] ++ news ++ (drained ++ worked) ++ (drained' ++ worked'),
      (∃ n, x.IsLineAt n) ∨ ∃ n ≤ 2, x.IsDueAt n := by
    intro x mem
    simp only [List.nil_append, List.mem_append] at mem
    rcases mem with (mem | mem | mem) | mem | mem
    · exact .inl ⟨_, lines x mem⟩
    · exact .inl ⟨_, lines' x mem⟩
    · exact .inr ⟨_, by decide, due' x mem⟩
    · exact .inl ⟨_, lines'' x mem⟩
    · exact .inr ⟨_, by decide, due'' x mem⟩
  obtain ⟨d, alone, due⟩ := List.map_eq_singleton_iff.mp waits
  obtain ⟨before, -⟩ := on_schedule first
  obtain ⟨after, -⟩ := on_schedule third
  -- what waited after the event was put off then, and so it was put off by now
  have put : d ∈ putOff ⟨reminding.dispatchNow arrival, .calm, [] ++ news⟩ := by
    rw [before.once.mem_iff, agenda, alone]
    exact List.mem_append_right _ (List.mem_singleton_self d)
  have put' : d ∈ putOff ⟨(reminding.dispatchNow arrival).tick.tick, .calm,
      [] ++ news ++ (drained ++ worked) ++ (drained' ++ worked')⟩ := by
    obtain ⟨x, mem, made⟩ := List.mem_flatMap.mp put
    exact List.mem_flatMap.mpr ⟨x, List.mem_append_left _ (List.mem_append_left _ mem), made⟩
  have past : d.due ≤ (reminding.dispatchNow arrival).tick.tick.machine.agenda.tick := by
    rw [due, last]
  have early : (reminding.dispatchNow arrival).tick.tick.machine.agenda.tick < Agenda.lastTick := by
    rw [last]
    decide
  rcases after.ran_of_due rfl put' past early with ⟨n, deeds, mem, onTime⟩ | ⟨n, gone, mem, -⟩
  · rcases kinds _ mem with ⟨m, line⟩ | ⟨m, small, rfl⟩
    · cases line
    · have now : n = 2 := (onTime (Nat.le_trans small (by decide))).trans due
      subst now
      exact ⟨_, d, deeds, third, mem⟩
  · rcases kinds _ mem with ⟨m, line⟩ | ⟨m, -, isDue⟩
    · cases line
    · cases isDue

end Chronicle

end Blockwork
