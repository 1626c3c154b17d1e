import Blockwork.Proofs.Machine.Sufficient

/-!
# On whose behalf a run does things

A run begins in the frame of an actor and stays with that actor.  Whatever it does, also in the body
of a function, of a target or of a loop, it does on behalf of the actor it began with, and so will
whatever it puts off (`Does.isBy`).

For any other actor, nothing is begun (`Machine.Leaves.of_changes`): a free slot stays free, and no
work of the other comes onto the agenda.

## What is load-bearing

There are two ways into another frame: an instruction whose children run in one, and the call of a
function.  Both copy the actor.

`Machine.Leaves` is weaker than leaving everything of an actor as it is.  That the actor's own slot
may be freed and the actor's own loops be told to stop is what makes it hold of departures and of
the polls of such loops.
-/

namespace Blockwork

open Interpreter

/-- A deed on behalf of an actor; that a loop has ended says nothing of an actor. -/
def Deed.IsBy (a : ActorId) : Deed → Prop
  | .ran f _ _ | .called f => f.actor = a
  | .looped _ _ => True
  | .postponed _ d => d.actor = a
  | .spread _ t => t.actor = a

/-- A choice that stays with the actor of a frame. -/
def Choice.StaysWith (f : Frame) : Choice → Prop
  | .within g _ => g.actor = f.actor
  | .postponed _ d => d.actor = f.actor
  | .spread _ t => t.actor = f.actor
  | _ => True

/-- A choice that an instruction can come to in a frame.  Children that run do so in the same frame,
perhaps with another subject, and only a loop comes to a loop. -/
def Choice.Fits (f : Frame) (i : Instruction) : Choice → Prop
  | .settled _ _ | .postponed _ _ => True
  | .spread r _ => i = .repeat_ r ∧ r.isAsync = true
  | .within g _ => (∃ target, g = { f with target := target }) ∧ ∀ r, i ≠ .repeat_ r
  | .loop r _ => i = .repeat_ r ∧ r.isAsync = false
  | .call c => i = .callFunction c

open Run (Yields) in
theorem Interpreter.choose_fits (limits : Limits) (f : Frame) (previous : Option Bool)
    (children : List Block) (i : Instruction) :
    Yields (Choice.Fits f i) (choose limits f previous children i) := by
  have alone {r : Run Outcome} :
      Yields (Choice.Fits f i) (do pure (.settled (← r) none)) := .bind fun _ => .pure trivial
  have inside (target : Target) (held : Option Bool) (other : ∀ r, i ≠ .repeat_ r) :
      Yields (Choice.Fits f i) (pure (.within { f with target := target } held)) :=
    .pure ⟨⟨target, rfl⟩, other⟩
  cases i with
  | event _ | function _ | break_ | continue_ => exact .pure trivial
  | callFunction c => exact .pure rfl
  | if_ c =>
      refine .bind fun answer => ?_
      rcases answer with e | _ | _
      · exact .pure trivial
      · exact .pure trivial
      · exact inside f.target _ fun r other => by cases other
  | else_ =>
      rcases previous with _ | _ | _
      · exact .pure trivial
      · exact inside f.target _ fun r other => by cases other
      · exact .pure trivial
  | repeat_ r =>
      refine .bind fun s => ?_
      split
      · exact .pure trivial
      · split
        · next isAsync =>
          intro st
          unfold handOver StateT.run
          dsimp only
          split
          · trivial
          · exact ⟨rfl, isAsync⟩
        · next atOnce => exact .pure ⟨rfl, Bool.eq_false_iff.mpr atOnce⟩
  | target t =>
      refine .bind fun s => .bind fun found => ?_
      split
      · exact .pure trivial
      · next target => exact inside target _ fun r other => by cases other
  | delay ticks =>
      refine .bind fun s => ?_
      split
      · exact .pure trivial
      · split
        · exact fun st => trivial
        · exact inside f.target _ fun r other => by cases other
  | _ => exact alone

/-- The same, of a choice that is known. -/
theorem Interpreter.fits_of_choose {limits : Limits} {f : Frame} {previous : Option Bool}
    {children : List Block} {i : Instruction} {st st' : RunState} {x : Choice}
    (chose : (choose limits f previous children i).run st = (x, st')) : x.Fits f i :=
  Run.Yields.of_run (choose_fits limits f previous children i) chose

/-- Whatever an instruction chooses stays with the actor. -/
theorem Interpreter.staysWith_of_choose {limits : Limits} {f : Frame} {previous : Option Bool}
    {children : List Block} {i : Instruction} {st st' : RunState} {x : Choice}
    (chose : (choose limits f previous children i).run st = (x, st')) : x.StaysWith f := by
  have made := made_of_choose chose
  cases x with
  | within g held =>
      obtain ⟨⟨target, rfl⟩, -⟩ := fits_of_choose chose
      exact rfl
  | postponed wait d =>
      obtain ⟨-, rfl, -⟩ := made
      exact rfl
  | spread r t =>
      obtain ⟨s, c, handle, m, -, -, rfl, -⟩ := made
      exact rfl
  | settled o held | loop r c | call c => trivial

/-- The body of a function runs for the actor that calls it. -/
theorem Interpreter.actor_bindParameters (c : Context) (parameters : List String)
    (values : List Datum) :
    (bindParameters c parameters values).frame.actor = c.frame.actor := by
  rw [bindParameters_frame]
  rfl

/-- **Whatever a run does, it does on behalf of its actor.** -/
theorem Does.isBy {limits : Limits} {f : Frame} {doing : Doing} {st st' : RunState}
    {deeds : List Deed} {r : Outcome × Option Bool} (h : Does limits f doing st deeds r st') :
    ∀ x ∈ deeds, x.IsBy f.actor := by
  induction h with
  | settled _ | nil | tooDeep _ | refused _ _ => exact fun x none => nomatch none
  | postponed chose | spread chose =>
      intro x mem
      obtain rfl := List.mem_singleton.mp mem
      exact staysWith_of_choose chose
  | within chose _ ih =>
      have same : _ = _ := staysWith_of_choose chose
      exact same ▸ ih
  | loop _ _ ih | call _ _ ih | stop _ _ ih => exact ih
  | block _ ih =>
      refine List.forall_mem_append.mpr ⟨ih, fun x mem => ?_⟩
      obtain rfl := List.mem_singleton.mp mem
      exact rfl
  | go _ _ _ ih ih' | next _ _ _ _ _ ih ih' => exact List.forall_mem_append.mpr ⟨ih, ih'⟩
  | cancelled _ | ended _ _ =>
      intro x mem
      obtain rfl := List.mem_singleton.mp mem
      trivial
  | last _ _ _ _ ih =>
      refine List.forall_mem_append.mpr ⟨ih, fun x mem => ?_⟩
      obtain rfl := List.mem_singleton.mp mem
      trivial
  | entered _ _ _ _ ih =>
      rw [actor_bindParameters] at ih
      exact List.forall_mem_cons.mpr ⟨actor_bindParameters .., ih⟩

theorem Iterates.isBy {limits : Limits} {f : Frame} {body : List Block} {c : Cursor}
    {st st' : RunState} {deeds : List Deed} {step : Step}
    (h : Iterates limits f body c st deeds step st') : ∀ x ∈ deeds, x.IsBy f.actor := by
  cases h with
  | ended _ => exact fun x none => nomatch none
  | entered _ inside _ => exact inside.isBy

/-! ## Actors for whom nothing is begun -/

/-- Raising the signals of loops. -/
theorem Signals.isRaised_foldl_raise (l : List LoopTask) (s : Signals) (x : Signal) :
    (l.foldl (fun s t => s.raise t.handle.signal) s).isRaised x = true ↔
      s.isRaised x = true ∨ ∃ t ∈ l, t.handle.signal = x := by
  induction l generalizing s with
  | nil => simp
  | cons t l ih =>
      rw [List.foldl_cons, ih, Signals.isRaised_raise, Bool.or_eq_true, decide_eq_true_iff,
        List.exists_mem_cons_iff, eq_comm, or_assoc, or_left_comm]

namespace Machine

/-- Nothing is begun for an actor: a free slot stays free, and no loop and no body of the actor
comes onto the agenda. -/
structure Leaves (a : ActorId) (m m' : Machine) : Prop extends Ages m m' where
  /-- A free slot stays free. -/
  slot : m.slots.active.get? a = none → m'.slots.active.get? a = none
  /-- Loops of the actor were there before. -/
  loops : ∀ t ∈ m'.agenda.loops, t.actor = a → t ∈ m.agenda.loops
  /-- Bodies of the actor were there before. -/
  delays : ∀ d ∈ m'.agenda.delays, d.actor = a → d ∈ m.agenda.delays

namespace Leaves

variable {a b : ActorId} {m m' m'' : Machine}

@[refl] theorem refl (a : ActorId) (m : Machine) : Leaves a m m :=
  ⟨.refl m, id, fun _ mem _ => mem, fun _ mem _ => mem⟩

theorem trans (h : Leaves a m m') (h' : Leaves a m' m'') : Leaves a m m'' where
  toAges := h.toAges.trans h'.toAges
  slot free := h'.slot (h.slot free)
  loops t mem own := h.loops t (h'.loops t mem own) own
  delays d mem own := h.delays d (h'.delays d mem own) own

/-- A change that leaves the agenda. -/
theorem of_agenda_eq (ages : Ages m m') (agenda : m'.agenda = m.agenda)
    (slot : m.slots.active.get? a = none → m'.slots.active.get? a = none) : Leaves a m m' := by
  refine ⟨ages, slot, ?_, ?_⟩
  · rw [agenda]
    exact fun _ mem _ => mem
  · rw [agenda]
    exact fun _ mem _ => mem

/-- Machines with the same agenda, slots and signals. -/
theorem of_eq (agenda : m'.agenda = m.agenda) (slots : m'.slots = m.slots)
    (signals : m'.signals = m.signals) : Leaves a m m' := by
  have same : Keeps [] [] m m' := .of_eq (congrArg Agenda.loops agenda) slots signals
  refine of_agenda_eq same.ages agenda ?_
  rw [slots]
  exact id

/-- Emptying a slot. -/
theorem get?_erase_of_free {slots : Table ActorId LoopHandle} (free : slots.get? a = none)
    (b : ActorId) : (slots.erase b).get? a = none := by
  rw [Table.get?_erase]
  split
  · rfl
  · exact free

/-- Whoever is told to stop, nothing is begun. -/
theorem requestStop (a : ActorId) (m : Machine) (b : ActorId) : Leaves a m (m.requestStop b).2 := by
  refine of_agenda_eq (m.ages_requestStop b) (Idle.requestStop m b).agenda fun free => ?_
  rcases m.requestStop_cases b with ⟨-, same⟩ | ⟨handle, -, same⟩
  · rw [same]
    exact free
  · rw [same]
    exact get?_erase_of_free free b

/-- A loop ends, whosever it is. -/
theorem release (a : ActorId) (m : Machine) (k : Token) :
    Leaves a m { m with slots := m.slots.release k.1 k.2.id } := by
  have ended : Keeps [k] [] m { m with slots := m.slots.release k.1 k.2.id } := .release k m
  refine of_agenda_eq ended.ages rfl fun free => ?_
  show (m.slots.release k.1 k.2.id).active.get? a = none
  unfold LoopSlots.release
  split
  · split
    · exact get?_erase_of_free free k.1
    · exact free
  · exact free

/-- Whoever departs, nothing is begun. -/
theorem depart (a : ActorId) (m : Machine) (b : ActorId) :
    Leaves a m ((m.requestStop b).2.cancelActor b) := by
  have departed : Keeps [] [] m ((m.requestStop b).2.cancelActor b) := .depart m b
  have stopped := requestStop a m b
  refine ⟨departed.ages, stopped.slot, stopped.loops, fun d mem => ?_⟩
  exact stopped.delays d (List.mem_filter.mp mem).1

/-- A loop of another actor comes onto the agenda. -/
theorem addLoop (m : Machine) {t : LoopTask} (other : t.actor ≠ a) :
    Leaves a m { m with agenda := m.agenda.addLoop t } := by
  refine ⟨⟨Nat.le_refl _, fun _ hx => hx⟩, id, fun u mem own => ?_, fun _ mem _ => mem⟩
  refine (List.mem_append.mp mem).resolve_right fun new => other ?_
  rw [← List.mem_singleton.mp new, own]

/-- What is done on behalf of another actor. -/
theorem of_change (h : Change b m m') (other : b ≠ a) : Leaves a m m' := by
  have ages := h.ages
  cases h with
  | stop => exact requestStop a m b
  | delay d own =>
      refine ⟨ages, id, fun _ mem _ => mem, fun e mem mine => ?_⟩
      refine (List.mem_append.mp mem).resolve_right fun new => other ?_
      rw [← own, ← List.mem_singleton.mp new, mine]
  | @start handle _ task taken _ own =>
      obtain ⟨-, -, rfl⟩ := takeSlot_eq_ok taken
      have slotted : Leaves a m { m with
          slots := { active := m.slots.active.insert b handle, started := m.slots.started + 1 }
          signals := m.signals.fresh.2 } :=
        of_agenda_eq ⟨ages.started, ages.raised⟩ rfl (Table.get?_insert_of_ne _ _ other).trans
      exact slotted.trans (addLoop _ (own ▸ other))
  | _ => exact of_eq rfl rfl rfl

theorem of_changes (h : Relation.ReflTransGen (Change b) m m') (other : b ≠ a) : Leaves a m m' := by
  induction h with
  | refl => exact refl a m
  | tail _ step ih => exact ih.trans (of_change step other)

end Leaves

end Machine

end Blockwork
