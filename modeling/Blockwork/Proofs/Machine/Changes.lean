import Blockwork.Proofs.Machine.Closed
import Mathlib.Logic.Relation

/-!
# What a run does to the machine

A run acts on behalf of one actor, and there are seven things it can do to the machine.
`Machine.Change` lists them: the world, the side effects, the dice and the note of a contradiction
change freely, blocks are put off on the actor's behalf, the actor's loop is stopped, and a loop of the
actor is started in a free slot.

`Run.Stays` says that everything a run does is a chain of such changes, and `stays_run` that this
holds of the interpreter.  The recursion of the proof is that of the interpreter: on the block tree,
on the iterations of a loop, and on the calls that may still be nested.  Whatever is preserved by each
of the seven changes is thereby preserved by every run.
-/

namespace Blockwork

/-- One thing that a run on behalf of an actor does to the machine. -/
inductive Machine.Change (a : ActorId) : Machine → Machine → Prop where
  /-- The world changes. -/
  | world (m : Machine) (w : World) : Change a m { m with world := w }
  /-- A side effect is requested. -/
  | effects (m : Machine) (e : Effects) : Change a m { m with effects := e }
  /-- The dice are used. -/
  | dice (m : Machine) (d : Dice) : Change a m { m with dice := d }
  /-- A calculation meets limits that contradict themselves. -/
  | contradict (m : Machine) : Change a m m.contradict
  /-- Blocks are put off. -/
  | delay (m : Machine) (d : Delayed) (own : d.actor = a) :
      Change a m { m with agenda := m.agenda.addDelay d }
  /-- The actor's loop is stopped. -/
  | stop (m : Machine) : Change a m (m.requestStop a).2
  /-- A loop is started in the actor's slot. -/
  | start (m : Machine) {handle : LoopHandle} {m' : Machine} (task : LoopTask)
      (taken : m.takeSlot a = .ok (handle, m')) (held : task.handle = handle)
      (own : task.actor = a) : Change a m { m' with agenda := m'.agenda.addLoop task }

/-- Everything a run does to the machine is done on behalf of an actor. -/
def Run.Stays {α : Type} (a : ActorId) (r : Run α) : Prop :=
  ∀ st, Relation.ReflTransGen (Machine.Change a) st.machine (r.run st).2.machine

namespace Run.Stays

variable {a : ActorId} {α β : Type}

/-- A run that leaves the machine. -/
theorem of_machine_eq {r : Run α} (same : ∀ st, (r.run st).2.machine = st.machine) : Stays a r := by
  intro st
  rw [same]

theorem of_change {r : Run α} (h : ∀ st, Machine.Change a st.machine (r.run st).2.machine) :
    Stays a r :=
  fun st => .single (h st)

theorem pure (x : α) : Stays a (Pure.pure x : Run α) := of_machine_eq fun _ => rfl

theorem bind {r : Run α} {k : α → Run β} (hr : Stays a r) (hk : ∀ x, Stays a (k x)) :
    Stays a (r >>= k) := by
  intro st
  exact (hr st).trans (hk (r.run st).1 (r.run st).2)

theorem scene (f : Frame) : Stays a (Run.scene f) := of_machine_eq fun _ => rfl

/-- What follows a look at the scene may count on the scene's frame. -/
theorem scene_bind {f : Frame} {k : Scene → Run α}
    (h : ∀ scope world, Stays a (k ⟨⟨f, scope⟩, world⟩)) : Stays a (Run.scene f >>= k) := by
  intro st
  exact h st.scope st.machine.world st

theorem isRaised (signal : Signal) : Stays a (Run.isRaised signal) := of_machine_eq fun _ => rfl

/-- What single blocks do to the machine is a change on behalf of whoever runs them. -/
theorem closed (a : ActorId) : Closed (Stays a) where
  pure := pure
  bind := bind
  scene := scene
  changeScope _ := of_machine_eq fun _ => rfl
  roll _ := of_change fun _ => .dice _ _
  useEffects _ := of_change fun _ => .effects _ _
  changeWorld _ := of_change fun _ => .world _ _

theorem contradict : Stays a (Run.changeMachine Machine.contradict) := of_change fun _ => .contradict _

theorem stopLoop {f : Frame} (own : f.actor = a) : Stays a (Run.stopLoop f) := by
  subst own
  exact (of_change fun _ => .stop _).bind fun _ => pure _

end Run.Stays

/-! ## Loops -/

namespace Loop

open Run (Stays)

variable {a : ActorId} {f : Frame} {body : Run Outcome}

theorem stays_cycle (inner : Stays a body) (n : Nat) (c : Cursor) : Stays a (cycle f body n c) := by
  induction n generalizing c with
  | zero =>
      refine (Stays.isRaised f.cancel).bind fun raised => ?_
      split
      · exact .pure _
      · exact (Stays.closed a).close f c
  | succ n ih =>
      refine (Stays.isRaised f.cancel).bind fun raised => ?_
      split
      · exact .pure _
      refine ((Stays.closed a).step f inner c).bind fun step => ?_
      split
      · exact .pure _
      · exact ih _

theorem stays_spread (own : f.actor = a) (interval : UInt32) (blocks : List Block) (c : Cursor) :
    Stays a (spread f interval blocks c) := by
  intro st
  unfold StateT.run spread
  dsimp only
  cases taken : st.machine.takeSlot f.actor with
  | error e => exact .refl
  | ok result =>
      obtain ⟨handle, machine⟩ := result
      rw [own] at taken
      exact .single (.start st.machine _ taken rfl own)

theorem stays_repeat (limits : Limits) (own : f.actor = a) (r : Repeat) (blocks : List Block)
    (inner : Stays a body) : Stays a (repeat_ limits f r blocks body) := by
  refine (Stays.scene f).bind fun s => ?_
  split
  · exact .pure _
  split
  · exact stays_spread own _ _ _
  · exact stays_cycle inner _ _

end Loop

/-! ## Trees of blocks and calls -/

namespace Interpreter

open Run (Stays)

variable {a : ActorId} {limits : Limits}

theorem stays_delay {f : Frame} {run : Run Outcome} (own : f.actor = a) (ticks : Option Value)
    (body : List Block) (inner : Stays a run) : Stays a (delay f ticks body run) := by
  refine (Stays.scene f).bind fun s => ?_
  split
  · exact .pure _
  split
  · exact .of_change fun st => .delay _ _ own
  · exact inner

/-- Calls stay with the actor of the frame. -/
def CallsStay (a : ActorId) (call : Caller) : Prop :=
  ∀ f c, f.actor = a → Stays a (call f c)

/-- One case for each instruction. -/
theorem stays_perform {call : Caller} (calls : CallsStay a call) {f : Frame} (own : f.actor = a)
    (previous : Option Bool) (children : List Block) {inner : Frame → Run Outcome}
    (inside : ∀ g : Frame, g.actor = a → Stays a (inner g)) (i : Instruction) :
    Stays a (perform limits call f previous children inner i) := by
  cases i with
  | event _ => exact .pure _
  | function _ => exact .pure _
  | if_ condition =>
      refine ((Stays.closed a).evaluate f condition).bind fun answer => ?_
      split
      · exact (inside f own).bind fun _ => .pure _
      · exact .pure _
      · exact .pure _
  | else_ =>
      -- only a condition that did not hold lets the children run
      rcases previous with _ | _ | _
      · exact .pure _
      · exact (inside f own).bind fun _ => .pure _
      · exact .pure _
  | repeat_ r => exact (Loop.stays_repeat limits own r children (inside f own)).bind fun _ => .pure _
  | target t =>
      refine (Stays.scene f).bind fun s => ((Stays.closed a).roll _).bind fun found => ?_
      split
      · exact .pure _
      · next target =>
        exact (inside { f with target := target } own).bind fun _ => .pure _
  | callFunction c => exact (calls f c own).bind fun _ => .pure _
  | variable_ v => exact ((Stays.closed a).variableStep f v).bind fun _ => .pure _
  | math m => exact ((Stays.closed a).mathStep (fun _ => .contradict) f m).bind fun _ => .pure _
  | text t => exact ((Stays.closed a).textStep limits f t).bind fun _ => .pure _
  | message shown => exact ((Stays.closed a).message f shown).bind fun _ => .pure _
  | teleport place => exact ((Stays.closed a).teleport f place).bind fun _ => .pure _
  | sideEffect r => exact ((Stays.closed a).sideEffect f r).bind fun _ => .pure _
  | delay ticks => exact (stays_delay own ticks children (inside f own)).bind fun _ => .pure _
  | stopLoop => exact (Stays.stopLoop own).bind fun _ => .pure _
  | break_ => exact .pure _
  | continue_ => exact .pure _
  | return_ value => exact ((Stays.closed a).return_ f value).bind fun _ => .pure _

mutual

theorem stays_block {call : Caller} (calls : CallsStay a call) {f : Frame} (own : f.actor = a)
    (previous : Option Bool) : ∀ b : Block, Stays a (block limits call f previous b)
  | ⟨id, instruction, children⟩ => by
      rw [block]
      have inside (g : Frame) (own : g.actor = a) : Stays a (blocks limits call g none children) :=
        stays_blocks calls own none children
      exact (stays_perform calls own previous children inside instruction).bind fun _ =>
        ((Stays.closed a).record f _ _).bind fun _ => .pure _

theorem stays_blocks {call : Caller} (calls : CallsStay a call) {f : Frame} (own : f.actor = a)
    (previous : Option Bool) : ∀ bs : List Block, Stays a (blocks limits call f previous bs)
  | [] => by
      rw [blocks]
      exact .pure _
  | b :: rest => by
      rw [blocks]
      refine (stays_block calls own previous b).bind fun result => ?_
      dsimp only
      split
      · exact stays_blocks calls own _ rest
      · exact .pure _

end

/-- Binding parameters writes variables and does nothing else. -/
theorem exists_bindParameters_eq (c : Context) (parameters : List String) (values : List Datum) :
    ∃ locals, bindParameters c parameters values = ⟨c.forCall.frame, { locals := locals }⟩ := by
  have kept (l : List (String × Datum)) (f : Frame) (locals : Table String (Option Datum)) :
      ∃ locals', l.foldl (fun c p => c.set p.1 p.2) ⟨f, { locals := locals }⟩ =
        (⟨f, { locals := locals' }⟩ : Context) := by
    induction l generalizing locals with
    | nil => exact ⟨locals, rfl⟩
    | cons p l ih => exact ih _
  exact kept _ _ _

/-- Binding parameters changes the frame as a call does. -/
theorem bindParameters_frame (c : Context) (parameters : List String) (values : List Datum) :
    (bindParameters c parameters values).frame = c.forCall.frame := by
  obtain ⟨locals, bound⟩ := exists_bindParameters_eq c parameters values
  rw [bound]

theorem stays_enter {run : Frame → List Block → Run Outcome}
    (inside : ∀ (g : Frame) (body : List Block), g.actor = a → Stays a (run g body)) {f : Frame}
    (own : f.actor = a) (c : Call) : Stays a (enter run f c) := by
  refine Stays.scene_bind fun scope world => ?_
  split
  · exact .pure _
  · next head b values _ =>
    refine ((Stays.closed a).changeScope _).bind fun _ => (inside _ _ ?_).bind fun _ =>
      (Stays.closed a).leave f c _ _ _
    rw [bindParameters_frame]
    exact own

/-- Calls stay with the actor, however deeply they are nested. -/
theorem callsStay_call (n : Nat) : CallsStay a (call limits n) := by
  induction n with
  | zero => exact fun f c own => .pure _
  | succ n ih =>
      exact fun f c own => stays_enter (fun g body own => stays_blocks ih own none body) own c

/-- **A run acts on behalf of the actor of its frame.** -/
theorem stays_run (limits : Limits) (f : Frame) (body : List Block) :
    Stays f.actor (run limits f body) :=
  stays_blocks (callsStay_call _) rfl none body

end Interpreter

end Blockwork
