import Blockwork.Proofs.Machine.Nesting
import Blockwork.Proofs.Session.Behalf

/-!
# Where units of work come from

A unit of work is a line that an event starts, or it was put off in the course of an earlier unit, or it
is a loop that has gone back to the agenda after an iteration.  There is no other way to the agenda
(`Proceeds.pending`), so what holds of lines, is handed on by units to what they put off and is kept by
loops from one iteration to the next holds of every unit that is ever done (`Reached.handed_on`).

## What is load-bearing

`Session.Enters` says with which blocks, in which frame and from which state a unit begins, and
`Session.Defers` that a unit puts another off, with the number of calls that are in progress then.  The
agenda after a unit is made of deeds, and that every deed comes from the middle of a run is
`Does.amid_of_mem`.
-/

namespace Blockwork

namespace Session

variable {σ : Type} {s : Session σ}

/-- A unit of work begins its blocks. -/
inductive Enters (s : Session σ) : Job → Onset → Prop where
  /-- The body of a line. -/
  | line {h : Handler} {e : Event} {script : Script} {line : Line}
      (started : s.startedLine? h e = some (script, line)) :
      Enters s (.handler h e)
        ⟨s.lineFrame script h e line.name, .siblings none line.body, s.lineStart script h e⟩
  /-- A delayed body. -/
  | delayed {d : Delayed} :
      Enters s (.delayed d) ⟨(s.refreshed d.context).frame, .siblings none d.body,
        ⟨(s.refreshed d.context).scope, s.machine⟩⟩
  /-- The body of a loop, in an iteration. -/
  | turn {t : LoopTask} {st : RunState} (live : t.isOver s.machine = false)
      (opened : (Loop.opens (s.refreshed t.context).frame t.cursor).run
        ⟨(s.refreshed t.context).scope, s.machine⟩ = (none, st)) :
      Enters s (.iteration t) ⟨(s.refreshed t.context).frame, .siblings none t.body, st⟩

/-- A new snapshot leaves the rest of a frame. -/
theorem kept_refreshed (s : Session σ) (c : Context) : c.frame.Kept 0 (s.refreshed c).frame := by
  unfold refreshed
  split <;> exact ⟨rfl, rfl, rfl⟩

/-- In the course of a unit of work, while a number of calls is in progress, another unit is put off. -/
inductive Defers (s : Session σ) (j : Job) : Nat → Job → Prop where
  /-- A body is put off. -/
  | delayed {x y : Onset} {n : Nat} {wait : Float} {d : Delayed} (enters : s.Enters j x)
      (amid : Amid s.limits x n y) (puts : PutsOff s.limits y (.postponed wait d)) :
      Defers s j n (.delayed d)
  /-- A loop is handed over. -/
  | iteration {x y : Onset} {n : Nat} {r : Repeat} {t : LoopTask} (enters : s.Enters j x)
      (amid : Amid s.limits x n y) (puts : PutsOff s.limits y (.spread r t)) :
      Defers s j n (.iteration t)

/-- Whatever is put off in a unit of work is put off in the middle of its blocks. -/
theorem Performs.putsOff {j : Job} {x : Happening} (h : s.Performs j x) {deed : Deed}
    (mem : deed ∈ x.deeds) (later : deed.isPutOff = true) :
    ∃ y n z, s.Enters j y ∧ Amid s.limits y n z ∧ PutsOff s.limits z deed := by
  cases h with
  | skipped _ | idle _ => cases mem
  | line started ran =>
      obtain ⟨n, z, amid, puts⟩ := ran.amid_of_mem mem later
      exact ⟨_, n, z, .line started, amid, puts⟩
  | delayed ran =>
      obtain ⟨n, z, amid, puts⟩ := ran.amid_of_mem mem later
      exact ⟨_, n, z, .delayed, amid, puts⟩
  | turn live ran =>
      cases ran with
      | ended opened => cases mem
      | entered opened inside closed =>
          obtain ⟨n, z, amid, puts⟩ := inside.amid_of_mem mem later
          exact ⟨_, n, z, .turn live opened, amid, puts⟩

/-- A unit of work that comes of another: it was put off, or it is the loop that goes on. -/
inductive Begets (s : Session σ) (j : Job) : Job → Prop where
  /-- It is put off. -/
  | defers {n : Nat} {u : Job} (h : s.Defers j n u) : Begets s j u
  /-- A loop goes on. -/
  | goesOn {t : LoopTask} {c : Cursor} {st : RunState} (own : j = .iteration t) :
      Begets s j (.iteration (s.returned t c st))

/-- A body on the agenda after a unit of work was there before or has come of it. -/
theorem Performs.mem_delays {j : Job} {x : Happening} (h : s.Performs j x) {d : Delayed}
    (mem : d ∈ (j.run s).machine.agenda.delays) :
    d ∈ s.machine.agenda.delays ∨ s.Begets j (.delayed d) := by
  obtain ⟨back, moves⟩ := h.moves
  rw [moves.delays, List.mem_append, Deed.mem_bodies] at mem
  refine mem.imp_right ?_
  rintro ⟨wait, made⟩
  obtain ⟨y, n, z, enters, amid, puts⟩ := h.putsOff made rfl
  exact .defers (.delayed enters amid puts)

/-- A loop on the agenda after a unit of work was there before or has come of it. -/
theorem Performs.mem_loops {j : Job} {x : Happening} (h : s.Performs j x) {t : LoopTask}
    (mem : t ∈ (j.run s).machine.agenda.loops) :
    t ∈ s.machine.agenda.loops ∨ s.Begets j (.iteration t) := by
  have put (made : t ∈ Deed.loops x.deeds) : s.Begets j (.iteration t) := by
    obtain ⟨r, made⟩ := Deed.mem_loops.mp made
    obtain ⟨y, n, z, enters, amid, puts⟩ := h.putsOff made rfl
    exact .defers (.iteration enters amid puts)
  have known (none : ∀ back, x.Returns back → back = []) :
      t ∈ s.machine.agenda.loops ∨ s.Begets j (.iteration t) := by
    obtain ⟨back, moves⟩ := h.moves
    rw [moves.loops, none back moves.returns, List.append_nil, List.mem_append] at mem
    exact mem.imp_right put
  cases h with
  | skipped _ | line _ _ | delayed _ | idle _ => exact known fun back returns => returns
  | @turn u live deeds step st ran =>
      cases step with
      | done o => exact known fun back returns => returns
      | next c =>
          have after : (Job.run s (.iteration u)).machine = _ := pollLoop_of_next live ran
          rw [after] at mem
          change t ∈ st.machine.agenda.loops ++ [s.returned u c st] at mem
          rw [ran.schedules.loops, List.mem_append, List.mem_append, List.mem_singleton] at mem
          rcases mem with (old | made) | rfl
          · exact .inl old
          · exact .inr (put made)
          · exact .inr (.goesOn rfl)

end Session

namespace Chronicle

variable {σ : Type} {c c' : Chronicle σ}

/-- A unit of work is still to be done: it is in hand or on the agenda. -/
inductive Pending (c : Chronicle σ) : Job → Prop where
  /-- A line for an event. -/
  | line {h : Handler} {e : Event} (mem : (h, e) ∈ c.phase.lines) : Pending c (.handler h e)
  /-- A body. -/
  | delayed {d : Delayed} (mem : d ∈ c.phase.owed ++ c.agenda.delays) : Pending c (.delayed d)
  /-- A loop. -/
  | iteration {t : LoopTask} (mem : t ∈ c.phase.polls ++ c.agenda.loops) : Pending c (.iteration t)

namespace Pending

/-- The next unit of work is pending. -/
theorem of_first {p' : Phase} {j : Job} (first : c.phase.first? = some (j, p')) : c.Pending j := by
  obtain ⟨owed, polls, -⟩ := Phase.first?_eq_some first
  have lines := Phase.lines_of_first? first
  cases j with
  | handler h e =>
      refine .line ?_
      rw [lines]
      exact List.mem_append_left _ (List.mem_singleton_self _)
  | delayed d =>
      refine .delayed (List.mem_append_left _ ?_)
      rw [owed]
      exact List.mem_append_left _ (List.mem_singleton_self _)
  | iteration t =>
      refine .iteration (List.mem_append_left _ ?_)
      rw [polls]
      exact List.mem_append_left _ (List.mem_singleton_self _)

/-- Chronicles in which less is in hand or on the agenda. -/
theorem of_subset {u : Job} (h : c'.Pending u) (lines : c'.phase.lines ⊆ c.phase.lines)
    (delays : c'.phase.owed ++ c'.agenda.delays ⊆ c.phase.owed ++ c.agenda.delays)
    (loops : c'.phase.polls ++ c'.agenda.loops ⊆ c.phase.polls ++ c.agenda.loops) :
    c.Pending u := by
  cases h with
  | line mem => exact .line (lines mem)
  | delayed mem => exact .delayed (delays mem)
  | iteration mem => exact .iteration (loops mem)

/-- Chronicles with the same agenda that have the same in hand. -/
theorem of_agenda_eq {u : Job} (h : c'.Pending u) (lines : c'.phase.lines ⊆ c.phase.lines)
    (owed : c'.phase.owed = c.phase.owed) (polls : c'.phase.polls = c.phase.polls)
    (agenda : c'.agenda = c.agenda) : c.Pending u := by
  refine h.of_subset lines ?_ ?_
  · rw [owed, agenda]
    exact List.Subset.refl _
  · rw [polls, agenda]
    exact List.Subset.refl _

/-- Once a unit of work is done, what was not pending before has come of it. -/
theorem of_unit {s : Session σ} {p p' : Phase} {past : List Happening} {j : Job} {x : Happening}
    (first : p.first? = some (j, p')) (done : s.Performs j x) {u : Job}
    (h : Pending ⟨j.run s, p', past ++ [x]⟩ u) : Pending ⟨s, p, past⟩ u ∨ s.Begets j u := by
  obtain ⟨owed, polls, -⟩ := Phase.first?_eq_some first
  have lines := Phase.lines_of_first? first
  cases h with
  | line mem =>
      refine .inl (.line ?_)
      rw [lines]
      exact List.mem_append_right _ mem
  | delayed mem =>
      -- what was in hand stays in hand; what is on the agenda may be new
      rcases List.mem_append.mp mem with inHand | later
      · refine .inl (.delayed (List.mem_append_left _ ?_))
        rw [owed]
        exact List.mem_append_right _ inHand
      · exact (done.mem_delays later).imp_left fun old => .delayed (List.mem_append_right _ old)
  | iteration mem =>
      rcases List.mem_append.mp mem with inHand | later
      · refine .inl (.iteration (List.mem_append_left _ ?_))
        rw [polls]
        exact List.mem_append_right _ inHand
      · exact (done.mem_loops later).imp_left fun old => .iteration (List.mem_append_right _ old)

end Pending

variable [Archive σ]

namespace Pending

/-- Once the lines that wait for an event are found, what was not pending before is such a line, of the
acting actor. -/
theorem of_load {s s' : Session σ} {past : List Happening} {e : Event} {rest : List Event}
    {ticks found : Bool} (loaded : s.ensureLoaded e.actor = .ok (found, s')) {u : Job}
    (h : Pending ⟨s', .events ((s'.handlers.matching e).map fun h => (h, e)) rest ticks, past⟩ u) :
    Pending ⟨s, .events [] (e :: rest) ticks, past⟩ u ∨
      ∃ h e, u = .handler h e ∧ h.owner = e.actor := by
  cases h with
  | line mem =>
      obtain ⟨k, matching, same⟩ := List.mem_map.mp mem
      cases same
      exact .inr ⟨_, _, rfl, Handlers.owner_of_mem_matching matching⟩
  | delayed mem =>
      rw [agenda, Session.ensureLoaded_machine loaded] at mem
      exact .inl (.delayed mem)
  | iteration mem =>
      rw [agenda, Session.ensureLoaded_machine loaded] at mem
      exact .inl (.iteration mem)

end Pending

/-- **There is no other way to the agenda.** A unit of work that is pending after a step was pending
before, or it is a line of the acting actor, or it has come of the unit that was done. -/
theorem Proceeds.pending (next : Proceeds c c') {u : Job} (h : c'.Pending u) :
    c.Pending u ∨ (∃ h e, u = .handler h e ∧ h.owner = e.actor) ∨
      ∃ j p', c.phase.first? = some (j, p') ∧ c.session.Begets j u := by
  cases next with
  | @tend s s' past done =>
      exact .inl (h.of_agenda_eq (List.Subset.refl _) rfl rfl done.idle.agenda)
  | @depart s past a =>
      refine .inl (h.of_subset (List.Subset.refl _) ?_ ?_)
      · exact fun d mem => (List.mem_filter.mp ((s.depart_agenda a) ▸ mem :
          d ∈ (s.machine.agenda.dropDelays a).delays)).1
      · exact fun t mem => ((s.depart_agenda a) ▸ mem : t ∈ (s.machine.agenda.dropDelays a).loops)
  | @stop s p past a =>
      exact .inl (h.of_agenda_eq (List.Subset.refl _) rfl rfl
        (Machine.Idle.requestStop s.machine a).agenda)
  | world w => exact .inl (h.of_agenda_eq (List.Subset.refl _) rfl rfl rfl)
  | queue e => exact .inl (h.of_agenda_eq (List.Subset.refl _) rfl rfl rfl)
  | event e => exact .inl (h.of_agenda_eq (List.Subset.refl _) rfl rfl rfl)
  | tick => exact .inl (h.of_agenda_eq (List.Subset.refl _) rfl rfl rfl)
  | refuse failed => exact .inl (h.of_agenda_eq (List.Subset.refl _) rfl rfl rfl)
  | eventDone => exact .inl (h.of_agenda_eq (List.Subset.refl _) rfl rfl rfl)
  | tickDone => exact .inl (h.of_agenda_eq (List.Subset.refl _) rfl rfl rfl)
  | load loaded => exact (h.of_load loaded).imp_right .inl
  | @advance s past =>
      refine .inl (h.of_subset (List.Subset.refl _) ?_ (List.Subset.refl _))
      exact fun d mem => (List.mem_append.mp mem).elim (fun mem => (List.mem_filter.mp mem).1)
        fun mem => (List.mem_filter.mp mem).1
  | @poll s past =>
      refine .inl (h.of_subset (List.Subset.refl _) (List.Subset.refl _) ?_)
      exact fun t mem => (List.mem_append.mp mem).elim (fun mem => (List.mem_filter.mp mem).1)
        fun mem => (List.mem_filter.mp mem).1
  | unit first done =>
      exact (h.of_unit first done).imp_right fun begets => .inr ⟨_, _, first, begets⟩

/-- **What is handed on.** What holds of every line that an event starts for its own actor, is handed on
by units of work to what they put off, and is kept by loops that go on, holds of every unit of work that
is pending and of every one that has been done. -/
theorem Reached.handed_on {P : Job → Prop}
    (lines : ∀ h e, h.owner = e.actor → P (.handler h e))
    (defers : ∀ (s : Session σ) j n u, P j → s.Defers j n u → P u)
    (goesOn : ∀ (s : Session σ) t c st, P (.iteration t) → P (.iteration (s.returned t c st)))
    (reached : c.Reached) :
    (∀ u, c.Pending u → P u) ∧ ∀ x ∈ c.history, (∃ n a gone, x = .departure n a gone) ∨
      ∃ (s : Session σ) (j : Job), P j ∧ s.Performs j x := by
  induction reached with
  | start limits world effects archive =>
      refine ⟨fun u h => ?_, fun x none => nomatch none⟩
      cases h with
      | line none | delayed none | iteration none => cases none
  | @step c c' before next ih =>
      obtain ⟨pending, past⟩ := ih
      refine ⟨fun u h => ?_, ?_⟩
      · rcases next.pending h with old | ⟨k, e, rfl, own⟩ | ⟨j, p', first, begets⟩
        · exact pending u old
        · exact lines k e own
        · have known := pending j (.of_first first)
          cases begets with
          | defers h => exact defers _ _ _ _ known h
          | goesOn own =>
              subst own
              exact goesOn _ _ _ _ known
      · cases next with
        | depart a =>
            intro x mem
            rcases List.mem_append.mp mem with mem | mem
            · exact past x mem
            · obtain rfl := List.mem_singleton.mp mem
              exact .inl ⟨_, _, _, rfl⟩
        | @unit s p p' hist j x first done =>
            intro y mem
            rcases List.mem_append.mp mem with mem | mem
            · exact past y mem
            · obtain rfl := List.mem_singleton.mp mem
              have here : (⟨s, p, hist⟩ : Chronicle σ).phase.first? = some (j, p') := first
              exact .inr ⟨s, j, pending j (.of_first here), done⟩
        | tend _ | stop _ | world _ | queue _ | event _ | tick | refuse _ | load _ | eventDone
          | advance | poll | tickDone => exact past

end Chronicle

end Blockwork
