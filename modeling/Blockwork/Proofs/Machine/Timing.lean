import Blockwork.Proofs.Binary
import Blockwork.Proofs.Machine.Deeds

/-!
# What deeds put on the agenda

The agenda after a run is the agenda before it, with the bodies that were put off and the loops that
were handed over behind what was there, in the order of the deeds.  `Schedules` says so, and with which
ticks: a body is due a number of whole ticks after the present one, and a loop makes its first iteration
on the next.

## What is load-bearing

A loop over ticks is known by its signal.  Signals are handed out in order and never again, so the loops
of a run have signals that no earlier loop has.
-/

namespace Blockwork

open Interpreter

/-! ## Waits -/

/-- The whole ticks of a wait are its floor, up to the last tick there is. -/
theorem wholeTicks_of_finite {wait : Float} {m : Nat} {q : Int}
    (reading : Binary.read wait = .finite false m q) :
    wholeTicks wait = min ⌊(m : ℚ) * 2 ^ q⌋₊ Agenda.lastTick := by
  rw [wholeTicks, Binary.saturate, reading, ← Binary.wholeDown_eq_floor]
  dsimp only
  rw [if_neg Bool.false_ne_true]
  omega

/-- There is a whole tick in a wait of at least one. -/
theorem wholeTicks_pos_iff {wait : Float} {m : Nat} {q : Int}
    (reading : Binary.read wait = .finite false m q) :
    0 < wholeTicks wait ↔ (1 : ℚ) ≤ m * 2 ^ q := by
  have last : 0 < Agenda.lastTick := by decide
  rw [wholeTicks_of_finite reading, Nat.lt_min, and_iff_left last, Nat.floor_pos]

/-! ## Work that is put off -/

/-- The body that a deed puts off. -/
def Deed.delayed? : Deed → Option Delayed
  | .postponed _ d => some d
  | _ => none

/-- The loop that a deed hands over. -/
def Deed.spread? : Deed → Option LoopTask
  | .spread _ t => some t
  | _ => none

namespace Deed

/-- The bodies put off, in order. -/
def bodies (deeds : List Deed) : List Delayed := deeds.filterMap delayed?

/-- The loops handed over, in order. -/
def loops (deeds : List Deed) : List LoopTask := deeds.filterMap spread?

@[simp] theorem bodies_append (l l' : List Deed) : bodies (l ++ l') = bodies l ++ bodies l' :=
  List.filterMap_append

@[simp] theorem loops_append (l l' : List Deed) : loops (l ++ l') = loops l ++ loops l' :=
  List.filterMap_append

theorem mem_bodies {deeds : List Deed} {d : Delayed} :
    d ∈ bodies deeds ↔ ∃ wait, .postponed wait d ∈ deeds := by
  rw [bodies, List.mem_filterMap]
  constructor
  · rintro ⟨deed, mem, made⟩
    cases deed with
    | postponed wait d' =>
        cases made
        exact ⟨wait, mem⟩
    | ran f b o => cases made
    | called f => cases made
    | looped r counts => cases made
    | spread r t => cases made
  · rintro ⟨wait, mem⟩
    exact ⟨_, mem, rfl⟩

theorem mem_loops {deeds : List Deed} {t : LoopTask} :
    t ∈ loops deeds ↔ ∃ r, .spread r t ∈ deeds := by
  rw [loops, List.mem_filterMap]
  constructor
  · rintro ⟨deed, mem, made⟩
    cases deed with
    | spread r t' =>
        cases made
        exact ⟨r, mem⟩
    | ran f b o => cases made
    | called f => cases made
    | looped r counts => cases made
    | postponed wait d => cases made
  · rintro ⟨r, mem⟩
    exact ⟨_, mem, rfl⟩

end Deed

/-- The second machine comes from the first by deeds that put work on the agenda. -/
structure Schedules (deeds : List Deed) (m m' : Machine) : Prop where
  /-- The tick is the same. -/
  tick : m'.agenda.tick = m.agenda.tick
  /-- The bodies put off come last. -/
  delays : m'.agenda.delays = m.agenda.delays ++ Deed.bodies deeds
  /-- The loops handed over come last. -/
  loops : m'.agenda.loops = m.agenda.loops ++ Deed.loops deeds
  /-- A body is due after at least one tick. -/
  due : ∀ wait d, .postponed wait d ∈ deeds →
    0 < wholeTicks wait ∧ d.due = min (m.agenda.tick + wholeTicks wait) Agenda.lastTick
  /-- A loop makes its first iteration on the next tick. -/
  first : ∀ r t, .spread r t ∈ deeds →
    t.interval = max r.interval.toNat 1 ∧ t.nextTick = m.agenda.tick + 1 ∧ t.cursor.iteration = 0
  /-- Signals are handed out in order. -/
  issued : m.signals.next ≤ m'.signals.next
  /-- The loops have new signals. -/
  signals : ∀ t ∈ Deed.loops deeds,
    m.signals.next ≤ t.handle.signal ∧ t.handle.signal < m'.signals.next
  /-- Each loop has a signal of its own. -/
  distinct : ((Deed.loops deeds).map fun t => t.handle.signal).Nodup

namespace Schedules

variable {m m' m'' : Machine} {deeds deeds' : List Deed}

/-- Deeds that are not about the agenda. -/
theorem of_agenda_eq (agenda : m'.agenda = m.agenda) (issued : m.signals.next ≤ m'.signals.next)
    (bodies : Deed.bodies deeds = []) (loops : Deed.loops deeds = []) : Schedules deeds m m' where
  tick := by rw [agenda]
  delays := by rw [agenda, bodies, List.append_nil]
  loops := by rw [agenda, loops, List.append_nil]
  due wait d h := by
    have mem : d ∈ Deed.bodies deeds := Deed.mem_bodies.mpr ⟨wait, h⟩
    rw [bodies] at mem
    cases mem
  first r t h := by
    have mem : t ∈ Deed.loops deeds := Deed.mem_loops.mpr ⟨r, h⟩
    rw [loops] at mem
    cases mem
  issued := issued
  signals t h := by
    rw [loops] at h
    cases h
  distinct := by
    rw [loops]
    exact .nil

theorem of_idle (idle : m.Idle m') (bodies : Deed.bodies deeds = [])
    (loops : Deed.loops deeds = []) : Schedules deeds m m' :=
  .of_agenda_eq idle.agenda (Nat.le_of_eq idle.next.symm) bodies loops

theorem trans (h : Schedules deeds m m') (h' : Schedules deeds' m' m'') :
    Schedules (deeds ++ deeds') m m'' where
  tick := h'.tick.trans h.tick
  delays := by rw [h'.delays, h.delays, Deed.bodies_append, List.append_assoc]
  loops := by rw [h'.loops, h.loops, Deed.loops_append, List.append_assoc]
  due wait d hd := (List.mem_append.mp hd).elim (h.due wait d) fun hd => h.tick ▸ h'.due wait d hd
  first r t ht := (List.mem_append.mp ht).elim (h.first r t) fun ht => h.tick ▸ h'.first r t ht
  issued := Nat.le_trans h.issued h'.issued
  signals t ht := by
    have earlier := h.issued
    have later := h'.issued
    rw [Deed.loops_append, List.mem_append] at ht
    rcases ht with ht | ht
    · exact ⟨(h.signals t ht).1, Nat.lt_of_lt_of_le (h.signals t ht).2 later⟩
    · exact ⟨Nat.le_trans earlier (h'.signals t ht).1, (h'.signals t ht).2⟩
  distinct := by
    rw [Deed.loops_append, List.map_append, List.nodup_append]
    refine ⟨h.distinct, h'.distinct, ?_⟩
    intro x hx y hy same
    obtain ⟨t, ht, rfl⟩ := List.mem_map.mp hx
    obtain ⟨u, hu, rfl⟩ := List.mem_map.mp hy
    -- the earlier loop has a signal that was handed out before the later one's
    exact Nat.ne_of_lt (Nat.lt_of_lt_of_le (h.signals t ht).2 (h'.signals u hu).1) same

theorem idle_trans (idle : m.Idle m') (h : Schedules deeds m' m'') : Schedules deeds m m'' := by
  have nothing : Schedules [] m m' := of_idle idle rfl rfl
  exact nothing.trans h

theorem trans_idle (h : Schedules deeds m m') (idle : m'.Idle m'') : Schedules deeds m m'' := by
  have nothing : Schedules [] m' m'' := of_idle idle rfl rfl
  have both := h.trans nothing
  rwa [List.append_nil] at both

theorem postponed {f : Frame} {children : List Block} {wait : Float} {st : RunState}
    (long : 0 < wholeTicks wait) :
    Schedules [.postponed wait (delayedBy f wait children st)] st.machine
      { st.machine with agenda := st.machine.agenda.addDelay (delayedBy f wait children st) } where
  tick := rfl
  delays := rfl
  loops := (List.append_nil _).symm
  due wait' d h := by
    cases List.mem_singleton.mp h
    exact ⟨long, rfl⟩
  first r t h := by cases List.mem_singleton.mp h
  issued := Nat.le_refl _
  signals t h := by cases h
  distinct := .nil

theorem spread {f : Frame} {children : List Block} {r : Repeat} {c : Cursor} {handle : LoopHandle}
    {st : RunState} {m : Machine} {s : Scene} {limits : Limits}
    (started : Cursor.start s limits r = .ok c)
    (taken : st.machine.takeSlot f.actor = .ok (handle, m)) :
    Schedules [.spread r (spreadTask f r children c handle st)] st.machine
      { m with agenda := m.agenda.addLoop (spreadTask f r children c handle st) } := by
  obtain ⟨-, rfl, rfl⟩ := Machine.takeSlot_eq_ok taken
  refine ⟨rfl, (List.append_nil _).symm, rfl, ?_, ?_, Nat.le_succ _, ?_, List.nodup_singleton _⟩
  · intro wait d h
    cases List.mem_singleton.mp h
  · intro r' t h
    cases List.mem_singleton.mp h
    exact ⟨rfl, rfl, (Cursor.limit_start started).1⟩
  · intro t h
    cases List.mem_singleton.mp h
    exact ⟨Nat.le_refl _, Nat.lt_succ_self _⟩

end Schedules

/-! ## Runs -/

/-- A delay of at least one tick puts its body off. -/
theorem Does.of_delay {limits : Limits} {f : Frame} {previous : Option Bool} {children : List Block}
    {ticks : Option Value} {st st' : RunState} {deeds : List Deed} {r : Outcome × Option Bool}
    {wait : Float} (h : Does limits f (.instruction previous children (.delay ticks)) st deeds r st')
    (resolved : Scene.number ⟨⟨f, st.scope⟩, st.machine.world⟩ ticks "ticks" = .ok wait)
    (long : 0 < wholeTicks wait) : deeds = [.postponed wait (delayedBy f wait children st)] := by
  have scene : (Run.scene f).run st = (⟨⟨f, st.scope⟩, st.machine.world⟩, st) := rfl
  have chose : (choose limits f previous children (.delay ticks)).run st =
      (putOff f wait children).run st := by
    rw [choose, Run.bind_eq scene, resolved]
    dsimp only
    rw [if_pos long]
  exact (Does.unique (.postponed chose) h).1

/-- A loop over ticks is handed over if its actor's slot is free. -/
theorem Does.of_repeat {limits : Limits} {f : Frame} {previous : Option Bool} {children : List Block}
    {loop : Repeat} {st st' : RunState} {deeds : List Deed} {r : Outcome × Option Bool} {c : Cursor}
    {handle : LoopHandle} {m : Machine}
    (h : Does limits f (.instruction previous children (.repeat_ loop)) st deeds r st')
    (isAsync : loop.isAsync = true)
    (started : Cursor.start ⟨⟨f, st.scope⟩, st.machine.world⟩ limits loop = .ok c)
    (taken : st.machine.takeSlot f.actor = .ok (handle, m)) :
    deeds = [.spread loop (spreadTask f loop children c handle st)] := by
  have scene : (Run.scene f).run st = (⟨⟨f, st.scope⟩, st.machine.world⟩, st) := rfl
  have chose : (choose limits f previous children (.repeat_ loop)).run st =
      (.spread loop (spreadTask f loop children c handle st),
        ((Loop.spread f loop.interval children c).run st).2) := by
    rw [choose, Run.bind_eq scene, started]
    dsimp only
    rw [if_pos isAsync]
    show handOver f loop children c st = _
    rw [handOver, taken]
  exact (Does.unique (.spread chose) h).1

/-- What a run does is what its deeds put on the agenda. -/
theorem Does.schedules {limits : Limits} {f : Frame} {doing : Doing} {st st' : RunState}
    {deeds : List Deed} {r : Outcome × Option Bool} (h : Does limits f doing st deeds r st') :
    Schedules deeds st.machine st'.machine := by
  induction h with
  | settled chose =>
      have idle := made_of_choose chose
      exact .of_idle idle rfl rfl
  | postponed chose =>
      obtain ⟨long, rfl, after⟩ := made_of_choose chose
      rw [after]
      exact .postponed long
  | spread chose =>
      obtain ⟨s, c, handle, m, started, taken, rfl, after⟩ := made_of_choose chose
      rw [after]
      exact .spread started taken
  | within chose inside ih =>
      obtain ⟨idle, -⟩ := made_of_choose chose
      exact .idle_trans idle ih
  | loop chose rounds ih =>
      obtain ⟨idle, -⟩ := made_of_choose chose
      exact .idle_trans idle ih
  | call chose calls ih =>
      have same := made_of_choose chose
      cases same
      exact ih
  | @block f previous id i children st st₁ deeds r inside ih =>
      exact ih.trans (.of_idle (Run.Idles.closed.record f ⟨id, i, children⟩ r.1 st₁) rfl rfl)
  | nil => exact .of_idle (.refl _) rfl rfl
  | stop first failed ih => exact ih
  | go first succeeded others ih ih' => exact ih.trans ih'
  | cancelled raised => exact .of_idle (.refl _) rfl rfl
  | @ended f r body c counts st st' o quiet opened =>
      have idle := Run.Idles.closed.opens f c st
      rw [opened] at idle
      exact .of_idle idle rfl rfl
  | @last f r body c counts st st₁ st₂ st' deeds o o' quiet opened inside closed ih =>
      have before := Run.Idles.closed.opens f c st
      have after := Run.Idles.closed.closes f c o st₂
      rw [opened] at before
      rw [closed] at after
      exact (ih.idle_trans before).trans (.of_idle after rfl rfl)
  | @next f r body c c' counts st st₁ st₂ st₃ st' deeds deeds' o o' quiet opened inside closed
      others ih ih' =>
      have before := Run.Idles.closed.opens f c st
      have after := Run.Idles.closed.closes f c o st₂
      rw [opened] at before
      rw [closed] at after
      exact ((ih.idle_trans before).trans_idle after).trans ih'
  | tooDeep full => exact .of_idle (.refl _) rfl rfl
  | refused room found => exact .of_idle (.refl _) rfl rfl
  | @entered f c st st₁ st' head b values deeds o o' room found inside left ih =>
      have after := Run.Idles.closed.leave f c ⟨f, st.scope⟩
        (bindParameters ⟨f, st.scope⟩ head.parameters values).frame o st₁
      rw [left] at after
      rw [← List.singleton_append]
      exact (Schedules.of_idle (.refl _) rfl rfl).trans (ih.trans_idle after)

theorem Iterates.schedules {limits : Limits} {f : Frame} {body : List Block} {c : Cursor}
    {st st' : RunState} {deeds : List Deed} {step : Step}
    (h : Iterates limits f body c st deeds step st') : Schedules deeds st.machine st'.machine := by
  have before := Run.Idles.closed.opens f c st
  cases h with
  | ended opened =>
      rw [opened] at before
      exact .of_idle before rfl rfl
  | @entered _ o _ _ st₂ _ opened inside closed =>
      have after := Run.Idles.closed.closes f c o st₂
      rw [opened] at before
      rw [closed] at after
      exact (inside.schedules.idle_trans before).trans_idle after

end Blockwork
