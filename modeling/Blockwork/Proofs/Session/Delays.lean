import Blockwork.Proofs.Session.Chronicle
import Mathlib.Algebra.Order.Group.Multiset
import Mathlib.Tactic.Abel

/-!
# Delayed bodies run on time

The bodies that were ever put off are, each as often as it was put off, the bodies that have run, that
were dropped when their actor departed, and that still wait.  A body runs on the tick for which it was
put off, and one that waits does so for a later tick.

## What is load-bearing

The bodies that are due are out of the agenda while they run, and what they put off goes into it.  The
account is therefore of what is in the agenda *and* of what the phase still has in hand.  What goes into
the agenda is for a later tick whatever the phase; that is why it does not matter when a block is
executed.
-/

namespace Blockwork

namespace Chronicle

variable {σ : Type} {c c' : Chronicle σ}

/-- The bodies that were ever put off. -/
def putOff (c : Chronicle σ) : List Delayed := c.history.flatMap fun x => Deed.bodies x.deeds

/-- The bodies that have run. -/
def ran (c : Chronicle σ) : List Delayed := c.history.flatMap Happening.ran

/-- The bodies that were dropped. -/
def dropped (c : Chronicle σ) : List Delayed := c.history.flatMap Happening.dropped

theorem mem_ran {d : Delayed} : d ∈ c.ran ↔ ∃ n deeds, .delayed n d deeds ∈ c.history := by
  rw [ran, List.mem_flatMap]
  constructor
  · rintro ⟨x, mem, ran⟩
    cases x with
    | delayed n d' deeds =>
        cases List.mem_singleton.mp ran
        exact ⟨n, deeds, mem⟩
    | line n h e deeds => cases ran
    | turn n t deeds fate => cases ran
    | departure n a gone => cases ran
  · rintro ⟨n, deeds, mem⟩
    exact ⟨_, mem, List.mem_singleton_self d⟩

theorem mem_dropped {d : Delayed} :
    d ∈ c.dropped ↔ ∃ n a gone, .departure n a gone ∈ c.history ∧ d ∈ gone := by
  rw [dropped, List.mem_flatMap]
  constructor
  · rintro ⟨x, mem, left⟩
    cases x with
    | departure n a gone => exact ⟨n, a, gone, mem, left⟩
    | line n h e deeds => cases left
    | delayed n d' deeds => cases left
    | turn n t deeds fate => cases left
  · rintro ⟨n, a, gone, mem, left⟩
    exact ⟨_, mem, left⟩

/-- Every body that is put off runs once, on its tick, unless its actor departs before. -/
structure BodiesOnTime (c : Chronicle σ) : Prop where
  /-- A body is put off for the whole ticks of its wait, and for at least one. -/
  due : ∀ x ∈ c.history, ∀ wait d, .postponed wait d ∈ x.deeds →
    0 < Interpreter.wholeTicks wait ∧
      d.due = min (x.tick + Interpreter.wholeTicks wait) Agenda.lastTick
  /-- It runs once, is dropped or waits. -/
  once : c.putOff.Perm (c.ran ++ c.dropped ++ (c.phase.owed ++ c.agenda.delays))
  /-- It runs on the tick for which it was put off. -/
  onTime : ∀ n d deeds, .delayed n d deeds ∈ c.history → n ≤ Agenda.lastTick → n = d.due
  /-- What has been taken out of the agenda was put off for the present tick. -/
  now : ∀ d ∈ c.phase.owed, c.agenda.tick ≤ Agenda.lastTick → d.due = c.agenda.tick
  /-- What waits in the agenda waits for a later tick. -/
  later : ∀ d ∈ c.agenda.delays, c.agenda.tick < Agenda.lastTick → c.agenda.tick < d.due
  /-- It is dropped only if its actor departs. -/
  departed : ∀ n a gone, .departure n a gone ∈ c.history → ∀ d ∈ gone, d.actor = a

namespace BodiesOnTime

theorem of_same (h : c.BodiesOnTime) (history : c'.history = c.history)
    (owed : c'.phase.owed = c.phase.owed) (tick : c'.agenda.tick = c.agenda.tick)
    (delays : c'.agenda.delays = c.agenda.delays) : c'.BodiesOnTime where
  due := history ▸ h.due
  once := by
    rw [putOff, ran, dropped, history, owed, delays]
    exact h.once
  onTime := history ▸ h.onTime
  now := by
    rw [owed, tick]
    exact h.now
  later := by
    rw [delays, tick]
    exact h.later
  departed := history ▸ h.departed

/-- When its tick is past, a body has run on that tick, or its actor has departed. -/
theorem ran_of_due (h : c.BodiesOnTime) (calm : c.phase.owed = []) {d : Delayed}
    (put : d ∈ c.putOff) (due : d.due ≤ c.agenda.tick) (early : c.agenda.tick < Agenda.lastTick) :
    (∃ n deeds, .delayed n d deeds ∈ c.history ∧ (n ≤ Agenda.lastTick → n = d.due)) ∨
      ∃ n gone, .departure n d.actor gone ∈ c.history ∧ d ∈ gone := by
  rw [h.once.mem_iff, calm, List.nil_append, List.mem_append, List.mem_append] at put
  rcases put with (ran | dropped) | waits
  · obtain ⟨n, deeds, mem⟩ := mem_ran.mp ran
    exact .inl ⟨n, deeds, mem, h.onTime n d deeds mem⟩
  · obtain ⟨n, a, gone, mem, left⟩ := mem_dropped.mp dropped
    obtain rfl := h.departed n a gone mem d left
    exact .inr ⟨n, gone, mem, left⟩
  · exact absurd (h.later d waits early) (Nat.not_lt.mpr due)

variable {s : Session σ} {p p' : Phase} {past : List Happening}

/-- What is put off in a unit of work joins what waits, and what runs in it has waited. -/
theorem unit {j : Job} {x : Happening} (h : BodiesOnTime ⟨s, p, past⟩)
    (first : p.first? = some (j, p')) (done : s.Performs j x) :
    BodiesOnTime ⟨j.run s, p', past ++ [x]⟩ := by
  obtain ⟨owed, -, -⟩ := Phase.first?_eq_some first
  obtain ⟨now, body, kept, -⟩ := done.of_job
  obtain ⟨back, moves⟩ := done.moves
  obtain ⟨m, schedules, -, -⟩ := moves.schedules
  refine ⟨?_, ?_, ?_, ?_, ?_, ?_⟩
  · intro y mem wait d put
    rcases List.mem_append.mp mem with mem | mem
    · exact h.due y mem wait d put
    · cases List.mem_singleton.mp mem
      rw [now]
      exact schedules.due wait d put
  · have before := h.once
    rw [← Multiset.coe_eq_coe] at before ⊢
    simp only [putOff, ran, dropped, agenda, ← Multiset.coe_add, List.flatMap_append,
      List.flatMap_singleton, moves.delays, owed, body, kept,
      List.append_nil] at before ⊢
    rw [before]
    abel
  · intro n d deeds mem early
    rcases List.mem_append.mp mem with mem | mem
    · exact h.onTime n d deeds mem early
    · cases List.mem_singleton.mp mem
      have due : d ∈ p.owed := by
        rw [owed, ← body]
        exact List.mem_append_left _ (List.mem_singleton_self d)
      have now : n = s.machine.agenda.tick := now
      rw [h.now d due (now ▸ early)]
      exact now
  · intro d mem early
    have due : d ∈ p.owed := by
      rw [owed]
      exact List.mem_append_right _ mem
    rw [agenda, moves.tick] at early ⊢
    exact h.now d due early
  · intro d mem early
    rw [agenda, moves.tick] at early ⊢
    rw [agenda, moves.delays, List.mem_append] at mem
    rcases mem with mem | mem
    · exact h.later d mem early
    · obtain ⟨wait, put⟩ := Deed.mem_bodies.mp mem
      obtain ⟨long, due⟩ := schedules.due wait d put
      rw [due]
      exact Nat.lt_min.mpr ⟨Nat.lt_add_of_pos_right long, early⟩
  · intro n a gone mem d left
    rcases List.mem_append.mp mem with mem | mem
    · exact h.departed n a gone mem d left
    · cases List.mem_singleton.mp mem
      have none : gone = [] := kept
      rw [none] at left
      cases left

/-- When the counter moves, the bodies that are due are those put off for the new tick. -/
theorem advance {ticks : Bool} (h : BodiesOnTime ⟨s, .events [] [] ticks, past⟩) :
    BodiesOnTime
      ⟨{ s with machine := { s.machine with agenda := s.machine.agenda.advance.takeDelays.2 } },
        .delays s.machine.agenda.advance.takeDelays.1, past⟩ where
  due := h.due
  once := by
    have parted := List.filter_append_perm
      (fun d : Delayed => decide (d.due ≤ s.machine.agenda.tick + 1)) s.machine.agenda.delays
    exact h.once.trans (parted.symm.append_left _)
  onTime := h.onTime
  now d mem early := by
    have due : d.due ≤ s.machine.agenda.tick + 1 := of_decide_eq_true (List.mem_filter.mp mem).2
    have later : s.machine.agenda.tick < d.due := h.later d (List.mem_filter.mp mem).1 early
    exact Nat.le_antisymm due later
  later d mem _ := by
    have waits := (List.mem_filter.mp mem).2
    rw [Bool.not_eq_true', decide_eq_false_iff_not, Nat.not_le] at waits
    exact waits
  departed := h.departed

variable [Archive σ]

/-- What an actor has put off is dropped, and nothing else is. -/
theorem depart (h : BodiesOnTime ⟨s, .calm, past⟩) (a : ActorId) :
    BodiesOnTime ⟨(s.depart a).2, .calm, past ++ [.departure s.machine.agenda.tick a
      (s.machine.agenda.delays.filter fun d => d.actor == a)]⟩ := by
  have after := s.depart_agenda a
  refine ⟨?_, ?_, ?_, ?_, ?_, ?_⟩
  · intro y mem wait d put
    rcases List.mem_append.mp mem with mem | mem
    · exact h.due y mem wait d put
    · cases List.mem_singleton.mp mem
      cases put
  · have before := h.once
    have parted := List.filter_append_perm (fun d : Delayed => d.actor == a) s.machine.agenda.delays
    rw [← Multiset.coe_eq_coe] at before parted ⊢
    simp only [putOff, ran, dropped, agenda, ← Multiset.coe_add, List.flatMap_append,
      List.flatMap_singleton, Happening.deeds, Happening.ran, Happening.dropped, Phase.owed, after,
      List.nil_append, Deed.bodies, List.filterMap_nil, List.append_nil] at before ⊢
    rw [before, ← parted]
    simp only [Agenda.dropDelays, bne, ← Multiset.coe_add]
    abel
  · intro n d deeds mem early
    rcases List.mem_append.mp mem with mem | mem
    · exact h.onTime n d deeds mem early
    · cases List.mem_singleton.mp mem
  · intro d mem
    cases mem
  · intro d mem early
    rw [agenda, after] at mem early ⊢
    exact h.later d (List.mem_filter.mp mem).1 early
  · intro n b gone mem d left
    rcases List.mem_append.mp mem with mem | mem
    · exact h.departed n b gone mem d left
    · cases List.mem_singleton.mp mem
      exact beq_iff_eq.mp (List.mem_filter.mp left).2

theorem proceeds (h : c.BodiesOnTime) (next : Proceeds c c') : c'.BodiesOnTime := by
  cases next with
  | @tend s s' past done =>
      have idle := done.idle
      exact h.of_same rfl rfl (congrArg Agenda.tick idle.agenda) (congrArg Agenda.delays idle.agenda)
  | depart a => exact h.depart a
  | @stop s p past a =>
      have idle := Machine.Idle.requestStop s.machine a
      exact h.of_same rfl rfl (congrArg Agenda.tick idle.agenda) (congrArg Agenda.delays idle.agenda)
  | world w => exact h.of_same rfl rfl rfl rfl
  | queue e => exact h.of_same rfl rfl rfl rfl
  | event e => exact h.of_same rfl rfl rfl rfl
  | tick => exact h.of_same rfl rfl rfl rfl
  | refuse failed => exact h.of_same rfl rfl rfl rfl
  | @load s s' past e rest ticks found loaded =>
      have same := congrArg Machine.agenda (Session.ensureLoaded_machine loaded)
      exact h.of_same rfl rfl (congrArg Agenda.tick same) (congrArg Agenda.delays same)
  | unit first done => exact h.unit first done
  | eventDone => exact h.of_same rfl rfl rfl rfl
  | advance => exact h.advance
  | poll => exact h.of_same rfl rfl rfl rfl
  | tickDone => exact h.of_same rfl rfl rfl rfl

end BodiesOnTime

end Chronicle

end Blockwork
