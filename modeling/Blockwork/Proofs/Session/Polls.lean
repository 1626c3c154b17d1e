import Blockwork.Proofs.Session.Chronicle

/-!
# Loops make their iterations on time

A loop that was handed over at the tick `n` with `k` ticks between iterations is polled at the ticks
`n + 1`, `n + 1 + k`, `n + 1 + 2 * k` and so on, for one iteration each, until a poll ends it or finds it
over.  As long as that has not happened, it waits for the next of these ticks.

`OnSchedule` is this for one loop, and `LoopsOnTime` for every loop that was ever handed over.

## What is load-bearing

A loop is known by its signal (`Issued`).  Signals are handed out once, so a loop that is handed over
while another is polled cannot be taken for it.

A loop that goes back to the agenda while others are polled waits for a later tick, since there is at
least one tick between iterations; so does one that is new.  The loops that are taken out of the agenda
are therefore those that wait for the present tick, and each is taken out once.
-/

namespace Blockwork

/-! ## The schedule of one loop -/

/-- A poll of a loop: when, for which iteration, and what came of it. -/
structure Visit where
  /-- The tick. -/
  tick : Nat
  /-- The iteration that the loop had come to. -/
  iteration : Nat
  /-- What became of the loop. -/
  fate : Fate
deriving DecidableEq

/-- The poll of the loop with a signal. -/
def Happening.visit? (g : Signal) : Happening → Option Visit
  | .turn n t _ fate => if t.handle.signal = g then some ⟨n, t.cursor.iteration, fate⟩ else none
  | _ => none

/-- The polls of a loop that was handed over at the tick `n` and has made `i` iterations, `k` ticks
apart. -/
def itinerary (n k i : Nat) : List Visit :=
  (List.range i).map fun j => ⟨n + 1 + j * k, j, .goesOn⟩

theorem itinerary_succ (n k i : Nat) :
    itinerary n k (i + 1) = itinerary n k i ++ [⟨n + 1 + i * k, i, .goesOn⟩] := by
  rw [itinerary, List.range_succ, List.map_append]
  rfl

/-- The polls of a loop so far, and the loop itself if it still waits, follow the schedule of a loop that
was handed over at the tick `n` with `k` ticks between iterations. -/
inductive OnSchedule (n k : Nat) : List Visit → List LoopTask → Prop where
  /-- It waits for the tick of its next iteration. -/
  | waits {u : LoopTask} (interval : u.interval = k)
      (next : u.nextTick = n + 1 + u.cursor.iteration * k) :
      OnSchedule n k (itinerary n k u.cursor.iteration) [u]
  /-- Its last poll has ended it or found it over. -/
  | ended (i : Nat) {fate : Fate} (last : fate ≠ .goesOn) :
      OnSchedule n k (itinerary n k i ++ [⟨n + 1 + i * k, i, fate⟩]) []

namespace OnSchedule

variable {n k : Nat} {visits : List Visit}

theorem perm {l l' : List LoopTask} (h : OnSchedule n k visits l) (same : l'.Perm l) :
    OnSchedule n k visits l' := by
  cases h with
  | waits interval next =>
      rw [List.perm_singleton.mp same]
      exact .waits interval next
  | ended i last =>
      rw [List.perm_nil.mp same]
      exact .ended i last

/-- A loop begins on schedule. -/
theorem begin {t : LoopTask} (interval : t.interval = k) (next : t.nextTick = n + 1)
    (zero : t.cursor.iteration = 0) : OnSchedule n k [] [t] := by
  have waits : OnSchedule n k (itinerary n k t.cursor.iteration) [t] := by
    refine .waits interval ?_
    rw [next, zero, Nat.zero_mul, Nat.add_zero]
  rwa [zero] at waits

/-- A loop waits only once. -/
theorem alone {t : LoopTask} {l : List LoopTask} (h : OnSchedule n k visits (t :: l)) : l = [] := by
  cases h with
  | waits _ _ => rfl

/-- A loop that is polled when it is due stays on schedule. -/
theorem poll {now : Nat} {t : LoopTask} {deeds : List Deed} {fate : Fate} {back : List LoopTask}
    (h : OnSchedule n k visits [t]) (due : t.nextTick = now)
    (returns : (Happening.turn now t deeds fate).Returns back) :
    OnSchedule n k (visits ++ [⟨now, t.cursor.iteration, fate⟩]) back := by
  cases h with
  | waits interval next =>
      rw [← due, next]
      cases fate with
      | goesOn =>
          obtain ⟨u, rfl, -, same, iteration, later⟩ := returns
          rw [← itinerary_succ, ← iteration]
          refine .waits (same.trans interval) ?_
          rw [later, ← due, next, interval, iteration, Nat.add_mul, Nat.one_mul, Nat.add_assoc _ _ k]
      | ends =>
          obtain rfl : back = [] := returns
          exact .ended _ (by decide)
      | idle =>
          obtain rfl : back = [] := returns
          exact .ended _ (by decide)

end OnSchedule

namespace Happening

variable {x : Happening} {g : Signal} {back : List LoopTask}

theorem visit?_eq_none (other : ∀ u ∈ x.polled, u.handle.signal ≠ g) : x.visit? g = none := by
  cases x with
  | turn n t deeds fate => exact if_neg (other t (List.mem_singleton_self t))
  | line n h e deeds => rfl
  | delayed n d deeds => rfl
  | departure n a gone => rfl

/-- What goes back to the agenda is the loop that was polled. -/
theorem Returns.polled (returns : x.Returns back) {u : LoopTask} (mem : u ∈ back) :
    ∃ t ∈ x.polled, u.handle = t.handle ∧ u.interval = t.interval ∧
      u.nextTick = x.tick + t.interval := by
  cases x with
  | turn n t deeds fate =>
      cases fate with
      | goesOn =>
          obtain ⟨v, rfl, handle, interval, -, later⟩ := returns
          cases List.mem_singleton.mp mem
          exact ⟨t, List.mem_singleton_self t, handle, interval, later⟩
      | ends => cases (show back = [] from returns) ▸ mem
      | idle => cases (show back = [] from returns) ▸ mem
  | line n h e deeds => cases (show back = [] from returns) ▸ mem
  | delayed n d deeds => cases (show back = [] from returns) ▸ mem
  | departure n a gone => cases (show back = [] from returns) ▸ mem

end Happening

/-- The loops with a signal. -/
def LoopTask.withSignal (g : Signal) (l : List LoopTask) : List LoopTask :=
  l.filter fun u => u.handle.signal == g

namespace LoopTask

variable {g : Signal} {l l' : List LoopTask}

theorem withSignal_append : withSignal g (l ++ l') = withSignal g l ++ withSignal g l' :=
  List.filter_append ..

theorem withSignal_eq_nil (other : ∀ u ∈ l, u.handle.signal ≠ g) : withSignal g l = [] := by
  refine List.filter_eq_nil_iff.mpr fun u mem same => ?_
  exact other u mem (beq_iff_eq.mp same)

theorem withSignal_eq_self (same : ∀ u ∈ l, u.handle.signal = g) : withSignal g l = l :=
  List.filter_eq_self.mpr fun u mem => beq_iff_eq.mpr (same u mem)

/-- Where each loop has a signal of its own, the signal tells the loop. -/
theorem withSignal_eq_singleton (distinct : (l.map fun u => u.handle.signal).Nodup) {t : LoopTask}
    (mem : t ∈ l) : withSignal t.handle.signal l = [t] := by
  obtain ⟨before, after, rfl⟩ := List.append_of_mem mem
  rw [List.map_append, List.map_cons, List.nodup_middle, List.nodup_cons] at distinct
  have other : ∀ u ∈ before ++ after, u.handle.signal ≠ t.handle.signal := by
    intro u mem same
    refine distinct.1 ?_
    rw [← List.map_append, ← same]
    exact List.mem_map_of_mem mem
  have left := withSignal_eq_nil fun u mem => other u (List.mem_append_left after mem)
  have right := withSignal_eq_nil fun u mem => other u (List.mem_append_right before mem)
  have here : withSignal t.handle.signal [t] = [t] :=
    withSignal_eq_self fun u mem => by rw [List.mem_singleton.mp mem]
  rw [← List.singleton_append, withSignal_append, withSignal_append, left, here, right]
  rfl

end LoopTask

open LoopTask (withSignal)

namespace OnSchedule

variable {n k : Nat} {visits : List Visit} {x : Happening} {rest back : List LoopTask}

/-- A poll keeps a loop on schedule, whether it is the loop that is polled or another. -/
theorem turn {g : Signal} (h : OnSchedule n k visits (withSignal g (x.polled ++ rest)))
    (due : ∀ t ∈ x.polled, t.nextTick = x.tick) (returns : x.Returns back) :
    OnSchedule n k (visits ++ (x.visit? g).toList) (withSignal g (rest ++ back)) := by
  rw [LoopTask.withSignal_append] at h ⊢
  by_cases other : ∀ u ∈ x.polled, u.handle.signal ≠ g
  · have unlike : ∀ u ∈ back, u.handle.signal ≠ g := by
      intro u mem
      obtain ⟨t, polled, same, -⟩ := returns.polled mem
      rw [same]
      exact other t polled
    rw [LoopTask.withSignal_eq_nil other] at h
    rw [Happening.visit?_eq_none other, LoopTask.withSignal_eq_nil unlike]
    simpa using h
  · push Not at other
    obtain ⟨t, polled, same⟩ := other
    cases x with
    | turn now u deeds fate =>
        obtain rfl : t = u := List.mem_singleton.mp polled
        have alike : ∀ u ∈ back, u.handle.signal = g := by
          intro u mem
          obtain ⟨t', polled, like, -⟩ := returns.polled mem
          cases List.mem_singleton.mp polled
          rw [like, same]
        have here : withSignal g [t] = [t] :=
          LoopTask.withSignal_eq_self fun u mem => by rw [List.mem_singleton.mp mem, same]
        have visited : (Happening.turn now t deeds fate).visit? g =
            some ⟨now, t.cursor.iteration, fate⟩ := if_pos same
        rw [Happening.polled, here, List.singleton_append] at h
        have none := h.alone
        rw [none] at h
        rw [none, visited, LoopTask.withSignal_eq_self alike]
        exact h.poll (due t polled) returns
    | line n h e deeds => cases polled
    | delayed n d deeds => cases polled
    | departure n a gone => cases polled

/-- Where all others have other signals, a new loop begins on schedule. -/
theorem join {new : List LoopTask} (distinct : (new.map fun u => u.handle.signal).Nodup)
    {t : LoopTask} (mem : t ∈ new) (others : ∀ u ∈ rest, u.handle.signal ≠ t.handle.signal)
    (interval : t.interval = k) (next : t.nextTick = n + 1) (zero : t.cursor.iteration = 0) :
    OnSchedule n k [] (withSignal t.handle.signal (rest ++ new)) := by
  rw [LoopTask.withSignal_append, LoopTask.withSignal_eq_nil others,
    LoopTask.withSignal_eq_singleton distinct mem]
  exact .begin interval next zero

end OnSchedule

/-! ## Loops over ticks -/

namespace Chronicle

variable {σ : Type} {c c' : Chronicle σ}

/-- The polls of the loop with a signal. -/
def visits (c : Chronicle σ) (g : Signal) : List Visit := c.history.filterMap (Happening.visit? g)

theorem visits_append (s s' : Session σ) (p p' : Phase) (past : List Happening) (x : Happening)
    (g : Signal) :
    visits ⟨s', p', past ++ [x]⟩ g = visits ⟨s, p, past⟩ g ++ (x.visit? g).toList := by
  rw [visits, List.filterMap_append]
  cases visited : x.visit? g with
  | none => simp [visits, visited]
  | some v => simp [visits, visited]

/-- The loops that wait for a tick or for their turn. -/
def loops (c : Chronicle σ) : List LoopTask := c.phase.polls ++ c.agenda.loops

/-- A loop makes its iterations on the ticks for which it was handed over, until it is over. -/
structure LoopsOnTime (c : Chronicle σ) : Prop where
  /-- Every loop that was handed over is on schedule. -/
  schedule : ∀ x ∈ c.history, ∀ r t, .spread r t ∈ x.deeds →
    OnSchedule x.tick (max r.interval.toNat 1) (c.visits t.handle.signal)
      (withSignal t.handle.signal c.loops)
  /-- A loop that has been taken out of the agenda waits for the present tick. -/
  now : ∀ u ∈ c.phase.polls, u.nextTick = c.agenda.tick
  /-- A loop in the agenda waits for a later tick, or for the present one while bodies run. -/
  later : ∀ u ∈ c.agenda.loops, c.phase.floor c.agenda.tick ≤ u.nextTick

/-- Loops have signals that have been handed out, and at least one tick between iterations. -/
structure Issued (c : Chronicle σ) : Prop where
  /-- There is at least one tick from an iteration to the next. -/
  spaced : ∀ u ∈ c.loops, 0 < u.interval
  /-- A loop that waits has a signal. -/
  waiting : ∀ u ∈ c.loops, u.handle.signal < c.session.machine.signals.next
  /-- A loop that has been polled has one. -/
  polled : ∀ x ∈ c.history, ∀ u ∈ x.polled, u.handle.signal < c.session.machine.signals.next
  /-- A loop that has been handed over has one. -/
  begun : ∀ x ∈ c.history, ∀ r t, .spread r t ∈ x.deeds →
    t.handle.signal < c.session.machine.signals.next

/-- What is needed to go on: loops are on time, and their signals are their own. -/
structure Tracked (c : Chronicle σ) : Prop extends c.LoopsOnTime, c.Issued

/-- Something happens to a session in a phase: the machine moves, and the phase goes on. -/
structure Passes (x : Happening) (back : List LoopTask) (s s' : Session σ) (p p' : Phase) : Prop where
  /-- The machine moves. -/
  moves : x.Moves back s.machine s'.machine
  /-- The loop that is polled was in hand. -/
  polls : p.polls = x.polled ++ p'.polls
  /-- It is the same sort of phase. -/
  floor : ∀ n, p'.floor n = p.floor n

section Passes

variable {s s' : Session σ} {p p' : Phase} {past past' : List Happening} {x : Happening}
  {back : List LoopTask}

namespace Passes

theorem before (h : Passes x back s s' p p') :
    loops ⟨s, p, past⟩ = x.polled ++ (p'.polls ++ s.machine.agenda.loops) := by
  rw [loops, h.polls, List.append_assoc]
  rfl

theorem after (h : Passes x back s s' p p') : (loops ⟨s', p', past⟩).Perm
    (p'.polls ++ s.machine.agenda.loops ++ back ++ Deed.loops x.deeds) := by
  rw [loops, agenda, h.moves.loops]
  simp only [List.append_assoc]
  exact (List.perm_append_comm.append_left _).append_left _

theorem mem_of_polled (h : Passes x back s s' p p') {t : LoopTask} (mem : t ∈ x.polled) :
    t ∈ p.polls := by
  rw [h.polls]
  exact List.mem_append_left _ mem

/-- A loop was there before, or it is new, or it goes back. -/
theorem source (h : Passes x back s s' p p') {u : LoopTask} (mem : u ∈ loops ⟨s', p', past'⟩) :
    u ∈ loops ⟨s, p, past⟩ ∨ u ∈ Deed.loops x.deeds ∨ u ∈ back := by
  rw [h.after.mem_iff, List.mem_append, List.mem_append] at mem
  rcases mem with (mem | mem) | mem
  · refine .inl ?_
    rw [h.before]
    exact List.mem_append_right _ mem
  · exact .inr (.inr mem)
  · exact .inr (.inl mem)

end Passes

/-- New loops get new signals. -/
theorem Issued.happen (h : Issued ⟨s, p, past⟩) (passes : Passes x back s s' p p') :
    Issued ⟨s', p', past ++ [x]⟩ := by
  obtain ⟨-, returns, m, schedules, next, -⟩ := passes.moves
  have issued : s.machine.signals.next ≤ s'.machine.signals.next := next ▸ schedules.issued
  have held {t : LoopTask} (mem : t ∈ x.polled) : t ∈ loops ⟨s, p, past⟩ :=
    List.mem_append_left _ (passes.mem_of_polled mem)
  refine ⟨?_, ?_, ?_, ?_⟩
  · intro u mem
    rcases passes.source mem with mem | mem | mem
    · exact h.spaced u mem
    · obtain ⟨r, put⟩ := Deed.mem_loops.mp mem
      rw [(schedules.first r u put).1]
      exact Nat.lt_of_lt_of_le Nat.one_pos (Nat.le_max_right _ _)
    · obtain ⟨t, polled, -, same, -⟩ := returns.polled mem
      rw [same]
      exact h.spaced t (held polled)
  · intro u mem
    rcases passes.source mem with mem | mem | mem
    · exact Nat.lt_of_lt_of_le (h.waiting u mem) issued
    · exact next ▸ (schedules.signals u mem).2
    · obtain ⟨t, polled, same, -⟩ := returns.polled mem
      rw [same]
      exact Nat.lt_of_lt_of_le (h.waiting t (held polled)) issued
  · intro y mem u polled
    rcases List.mem_append.mp mem with mem | mem
    · exact Nat.lt_of_lt_of_le (h.polled y mem u polled) issued
    · cases List.mem_singleton.mp mem
      exact Nat.lt_of_lt_of_le (h.waiting u (held polled)) issued
  · intro y mem r t put
    rcases List.mem_append.mp mem with mem | mem
    · exact Nat.lt_of_lt_of_le (h.begun y mem r t put) issued
    · cases List.mem_singleton.mp mem
      exact next ▸ (schedules.signals t (Deed.mem_loops.mpr ⟨r, put⟩)).2

/-- A loop that was handed over earlier stays on schedule. -/
theorem Tracked.schedule_old (h : Tracked ⟨s, p, past⟩) (passes : Passes x back s s' p p')
    {y : Happening} (mem : y ∈ past) {r : Repeat} {t : LoopTask} (put : .spread r t ∈ y.deeds) :
    OnSchedule y.tick (max r.interval.toNat 1) (visits ⟨s', p', past ++ [x]⟩ t.handle.signal)
      (withSignal t.handle.signal (loops ⟨s', p', past ++ [x]⟩)) := by
  obtain ⟨now, returns, m, schedules, -, -⟩ := passes.moves
  have due : ∀ t ∈ x.polled, t.nextTick = x.tick := fun t mem =>
    (h.now t (passes.mem_of_polled mem)).trans now.symm
  have others : ∀ u ∈ Deed.loops x.deeds, u.handle.signal ≠ t.handle.signal := fun u mem' =>
    Nat.ne_of_gt (Nat.lt_of_lt_of_le (h.begun y mem r t put) (schedules.signals u mem').1)
  have before := h.schedule y mem r t put
  rw [passes.before] at before
  refine .perm ?_ (passes.after.filter _)
  show OnSchedule _ _ _ (withSignal _ _)
  rw [LoopTask.withSignal_append, LoopTask.withSignal_eq_nil others, List.append_nil,
    visits_append s s' p p']
  exact before.turn due returns

/-- A loop that is handed over begins on schedule. -/
theorem Tracked.schedule_new (h : Tracked ⟨s, p, past⟩) (passes : Passes x back s s' p p')
    {r : Repeat} {t : LoopTask} (put : .spread r t ∈ x.deeds) :
    OnSchedule x.tick (max r.interval.toNat 1) (visits ⟨s', p', past ++ [x]⟩ t.handle.signal)
      (withSignal t.handle.signal (loops ⟨s', p', past ++ [x]⟩)) := by
  obtain ⟨now, returns, m, schedules, -, -⟩ := passes.moves
  have new : t ∈ Deed.loops x.deeds := Deed.mem_loops.mpr ⟨r, put⟩
  have newer : ∀ {g : Signal}, g < s.machine.signals.next → g ≠ t.handle.signal := fun earlier =>
    Nat.ne_of_lt (Nat.lt_of_lt_of_le earlier (schedules.signals t new).1)
  have held : ∀ u ∈ x.polled, u.handle.signal ≠ t.handle.signal := fun u mem =>
    newer (h.waiting u (List.mem_append_left _ (passes.mem_of_polled mem)))
  have unvisited : visits ⟨s, p, past⟩ t.handle.signal = [] :=
    List.filterMap_eq_nil_iff.mpr fun y mem =>
      Happening.visit?_eq_none fun u polled => newer (h.polled y mem u polled)
  have others : ∀ u ∈ p'.polls ++ s.machine.agenda.loops ++ back,
      u.handle.signal ≠ t.handle.signal := by
    intro u mem
    rcases List.mem_append.mp mem with mem | mem
    · refine newer (h.waiting u ?_)
      rw [passes.before]
      exact List.mem_append_right _ mem
    · obtain ⟨v, polled, same, -⟩ := returns.polled mem
      rw [same]
      exact held v polled
  obtain ⟨interval, nextTick, zero⟩ := schedules.first r t put
  refine .perm ?_ (passes.after.filter _)
  rw [visits_append s s' p p', unvisited, Happening.visit?_eq_none held, now]
  exact .join schedules.distinct new others interval nextTick zero

/-- What goes into the agenda waits for a later tick. -/
theorem Tracked.happen (h : Tracked ⟨s, p, past⟩) (passes : Passes x back s s' p p') :
    Tracked ⟨s', p', past ++ [x]⟩ := by
  refine { h.toIssued.happen passes with schedule := ?_, now := ?_, later := ?_ }
  · intro y mem r t put
    rcases List.mem_append.mp mem with mem | mem
    · exact h.schedule_old passes mem put
    · cases List.mem_singleton.mp mem
      exact h.schedule_new passes put
  · intro u mem
    rw [agenda, passes.moves.tick]
    refine h.now u ?_
    show u ∈ p.polls
    rw [passes.polls]
    exact List.mem_append_right _ mem
  · intro u mem
    have tick := passes.moves.tick
    have loops := passes.moves.loops
    obtain ⟨now, returns, m, schedules, -, -⟩ := passes.moves
    rw [agenda, loops, List.append_assoc, List.mem_append, List.mem_append] at mem
    rw [agenda, tick]
    show p'.floor _ ≤ _
    rw [passes.floor]
    rcases mem with mem | mem | mem
    · exact h.later u mem
    · obtain ⟨r, put⟩ := Deed.mem_loops.mp mem
      rw [(schedules.first r u put).2.1]
      exact p.floor_le _
    · obtain ⟨t, polled, -, -, later⟩ := returns.polled mem
      have spaced := h.spaced t (List.mem_append_left _ (passes.mem_of_polled polled))
      rw [later, now]
      exact Nat.le_trans (p.floor_le _) (Nat.add_le_add_left spaced _)

end Passes

namespace Tracked

theorem of_same (h : c.Tracked) (history : c'.history = c.history) (loops : c'.loops.Perm c.loops)
    (next : c'.session.machine.signals.next = c.session.machine.signals.next)
    (now : ∀ u ∈ c'.phase.polls, u.nextTick = c'.agenda.tick)
    (later : ∀ u ∈ c'.agenda.loops, c'.phase.floor c'.agenda.tick ≤ u.nextTick) : c'.Tracked where
  schedule := by
    rw [history]
    intro x mem r t put
    rw [visits, history]
    exact (h.schedule x mem r t put).perm (loops.filter _)
  now := now
  later := later
  spaced u mem := h.spaced u (loops.mem_iff.mp mem)
  waiting u mem := next ▸ h.waiting u (loops.mem_iff.mp mem)
  polled := by
    rw [history, next]
    exact h.polled
  begun := by
    rw [history, next]
    exact h.begun

/-- Where the loops and the tick are the same, nothing changes for them. -/
theorem of_agenda (h : c.Tracked) (history : c'.history = c.history)
    (polls : c'.phase.polls = c.phase.polls) (floor : ∀ n, c'.phase.floor n = c.phase.floor n)
    (tick : c'.agenda.tick = c.agenda.tick) (loops : c'.agenda.loops = c.agenda.loops)
    (next : c'.session.machine.signals.next = c.session.machine.signals.next) : c'.Tracked := by
  refine h.of_same history ?_ next ?_ ?_
  · rw [Chronicle.loops, Chronicle.loops, polls, loops]
  · rw [polls, tick]
    exact h.now
  · rw [loops, floor, tick]
    exact h.later

variable {s s' : Session σ} {p p' : Phase} {past : List Happening}

theorem of_idle (h : Tracked ⟨s, p, past⟩) (idle : s.machine.Idle s'.machine)
    (polls : p'.polls = p.polls) (floor : ∀ n, p'.floor n = p.floor n) : Tracked ⟨s', p', past⟩ :=
  h.of_agenda rfl polls floor (congrArg Agenda.tick idle.agenda) (congrArg Agenda.loops idle.agenda)
    idle.next

/-- A unit of work polls its loop in time, and the loops that it hands over are new. -/
theorem unit {j : Job} {x : Happening} (h : Tracked ⟨s, p, past⟩)
    (first : p.first? = some (j, p')) (done : s.Performs j x) :
    Tracked ⟨j.run s, p', past ++ [x]⟩ := by
  obtain ⟨-, polls, floor⟩ := Phase.first?_eq_some first
  obtain ⟨-, -, -, polled⟩ := done.of_job
  obtain ⟨back, moves⟩ := done.moves
  rw [← polled] at polls
  exact h.happen ⟨moves, polls, floor⟩

/-- When the counter moves, no loop is late. -/
theorem advance (h : Tracked ⟨s, .events [] [] true, past⟩) :
    Tracked
      ⟨{ s with machine := { s.machine with agenda := s.machine.agenda.advance.takeDelays.2 } },
        .delays s.machine.agenda.advance.takeDelays.1, past⟩ :=
  h.of_same rfl (.refl _) rfl (fun _ mem => nomatch mem) h.later

/-- The loops that are due are those that wait for the present tick. -/
theorem poll (h : Tracked ⟨s, .delays [], past⟩) :
    Tracked ⟨{ s with machine := { s.machine with agenda := s.machine.agenda.takeLoops.2 } },
      .loops s.machine.agenda.takeLoops.1, past⟩ := by
  refine h.of_same rfl ?_ rfl ?_ ?_
  · exact List.filter_append_perm (fun t : LoopTask => decide (t.nextTick ≤ s.machine.agenda.tick))
      s.machine.agenda.loops
  · intro u mem
    have due : u.nextTick ≤ s.machine.agenda.tick := of_decide_eq_true (List.mem_filter.mp mem).2
    have later : s.machine.agenda.tick ≤ u.nextTick := h.later u (List.mem_filter.mp mem).1
    exact Nat.le_antisymm due later
  · intro u mem
    have waits := (List.mem_filter.mp mem).2
    rw [Bool.not_eq_true', decide_eq_false_iff_not, Nat.not_le] at waits
    exact waits

variable [Archive σ]

theorem depart (h : Tracked ⟨s, .calm, past⟩) (a : ActorId) (gone : List Delayed) :
    Tracked ⟨(s.depart a).2, .calm, past ++ [.departure s.machine.agenda.tick a gone]⟩ := by
  have agenda := s.depart_agenda a
  have tick : (s.depart a).2.machine.agenda.tick = s.machine.agenda.tick := by
    rw [agenda]
    rfl
  have loops : (s.depart a).2.machine.agenda.loops = s.machine.agenda.loops := by
    rw [agenda]
    rfl
  have departed : Tracked ⟨(s.depart a).2, .calm, past⟩ :=
    h.of_agenda rfl rfl (fun _ => rfl) tick loops (s.depart_next a)
  exact departed.happen ⟨.of_schedules tick.symm rfl (.of_idle (.refl _) rfl rfl), rfl, fun _ => rfl⟩

theorem proceeds (h : c.Tracked) (next : Proceeds c c') : c'.Tracked := by
  cases next with
  | tend done => exact h.of_idle done.idle rfl fun _ => rfl
  | depart a => exact h.depart a _
  | stop a => exact h.of_idle (.requestStop _ a) rfl fun _ => rfl
  | world w => exact h.of_idle (.world _ w) rfl fun _ => rfl
  | queue e => exact h.of_idle (.refl _) rfl fun _ => rfl
  | event e => exact h.of_idle (.refl _) rfl fun _ => rfl
  | tick => exact h.of_idle (.refl _) rfl fun _ => rfl
  | refuse failed => exact h.of_idle (.refl _) rfl fun _ => rfl
  | load loaded =>
      refine h.of_idle ?_ rfl fun _ => rfl
      rw [Session.ensureLoaded_machine loaded]
  | unit first done => exact h.unit first done
  | eventDone => exact h.of_idle (.refl _) rfl fun _ => rfl
  | advance => exact h.advance
  | poll => exact h.poll
  | tickDone => exact h.of_idle (.refl _) rfl fun _ => rfl

end Tracked

end Chronicle

end Blockwork
