import Blockwork.Proofs.Machine.Unwinding

/-!
# What a run does to the world

Blocks send messages and move actors, and nothing else happens to the world while they run
(`Does.posts`).  So the same actors are online afterwards, and the mailboxes have only grown.

A contradiction that has been noted stays noted, so what is not broken off at the end was not broken off
before.  And with limits that do not contradict themselves nothing is ever noted.
-/

namespace Blockwork

open Interpreter

/-- Work within limits: messages have been sent and actors have been moved, all at the same tick. -/
structure Machine.Posts (limits : Limits) (m m' : Machine) : Prop where
  /-- What has happened in the world. -/
  world : ∃ sent, m.world.Passes sent m'.world
  /-- No tick has passed. -/
  tick : m'.agenda.tick = m.agenda.tick
  /-- A contradiction stays. -/
  stays : m.contradicted = true → m'.contradicted = true
  /-- A contradiction comes from the limits. -/
  sound : m'.contradicted = true → m.contradicted = true ∨ limits.Contradictory

namespace Machine.Posts

variable {limits : Limits} {m m' m'' : Machine}

@[refl] theorem refl (m : Machine) : Posts limits m m := ⟨⟨[], .refl m.world⟩, rfl, id, .inl⟩

theorem trans (h : Posts limits m m') (h' : Posts limits m' m'') : Posts limits m m'' where
  world := by
    obtain ⟨sent, first⟩ := h.world
    obtain ⟨sent', later⟩ := h'.world
    exact ⟨sent ++ sent', first.trans later⟩
  tick := h'.tick.trans h.tick
  stays := h'.stays ∘ h.stays
  sound noted := (h'.sound noted).elim h.sound .inr

/-- The world changes as it does while blocks run, and the rest has nothing to do with it. -/
theorem of_passes {sent : List Delivery} (world : m.world.Passes sent m'.world)
    (tick : m'.agenda.tick = m.agenda.tick) (contradiction : m'.contradiction = m.contradiction) :
    Posts limits m m' := by
  have same : m'.contradicted = m.contradicted := congrArg Option.isSome contradiction
  refine ⟨⟨sent, world⟩, tick, fun noted => ?_, fun noted => .inl ?_⟩
  · rwa [same]
  · rwa [← same]

/-- Machines with the same world. -/
theorem of_eq (world : m'.world = m.world) (tick : m'.agenda.tick = m.agenda.tick)
    (contradiction : m'.contradiction = m.contradiction) : Posts limits m m' := by
  have none : m.world.Passes [] m'.world := world ▸ .refl m.world
  exact of_passes none tick contradiction

theorem contradict (negative : limits.Contradictory) (m : Machine) : Posts limits m m.contradict := by
  refine ⟨⟨[], .refl m.world⟩, rfl, fun noted => ?_, fun _ => .inr negative⟩
  obtain ⟨effects, noted⟩ := Option.isSome_iff_exists.mp noted
  simp only [contradicted, Machine.contradict, noted]
  rfl

theorem requestStop (m : Machine) (a : ActorId) : Posts limits m (m.requestStop a).2 := by
  rcases m.requestStop_cases a with ⟨-, same⟩ | ⟨handle, -, same⟩
  · rw [same]
  · rw [same]
    exact .of_eq rfl rfl rfl

/-- In the next tick as well. -/
theorem advance (h : Posts limits m m') :
    Posts limits { m with agenda := m.agenda.advance } { m' with agenda := m'.agenda.advance } :=
  ⟨h.world, congrArg (· + 1) h.tick, h.stays, h.sound⟩

end Machine.Posts

/-- Whatever a run does, it sends messages and moves actors at most. -/
def Run.Posts (limits : Limits) {α : Type} (r : Run α) : Prop :=
  ∀ st : RunState, st.machine.Posts limits (r.run st).2.machine

namespace Run.Posts

variable {limits : Limits} {α β : Type}

/-- A run that leaves the machine. -/
theorem of_machine_eq {r : Run α} (same : ∀ st, (r.run st).2.machine = st.machine) : Posts limits r := by
  intro st
  rw [same]

theorem pure (x : α) : Posts limits (Pure.pure x : Run α) := of_machine_eq fun _ => rfl

theorem bind {r : Run α} {k : α → Run β} (hr : Posts limits r) (hk : ∀ x, Posts limits (k x)) :
    Posts limits (r >>= k) := by
  intro st
  exact (hr st).trans (hk (r.run st).1 (r.run st).2)

/-- This is all that single blocks do to the world. -/
theorem closed : Closed (Posts limits) where
  pure := pure
  bind := bind
  scene _ := of_machine_eq fun _ => rfl
  changeScope _ := of_machine_eq fun _ => rfl
  roll _ _ := .of_eq rfl rfl rfl
  useEffects _ _ := .of_eq rfl rfl rfl
  changeWorld usual st := (usual st.machine.world).elim fun _ passes => .of_passes passes rfl rfl

theorem stopLoop (f : Frame) : Posts limits (Run.stopLoop f) := by
  have stops : Posts limits (Run.changeMachine fun m => (m.requestStop f.actor).2) :=
    fun st => .requestStop st.machine f.actor
  exact stops.bind fun _ => pure _

theorem putOff (f : Frame) (wait : Float) (body : List Block) :
    Posts limits (Interpreter.putOff f wait body) :=
  fun _ => .of_eq rfl rfl rfl

theorem handOver (f : Frame) (r : Repeat) (body : List Block) (c : Cursor) :
    Posts limits (Interpreter.handOver f r body c) := by
  intro st
  unfold StateT.run
  cases taken : st.machine.takeSlot f.actor with
  | error e =>
      simp only [Interpreter.handOver, taken]
      exact .refl st.machine
  | ok result =>
      obtain ⟨-, -, same⟩ := Machine.takeSlot_eq_ok taken
      simp only [Interpreter.handOver, Loop.spread, taken, StateT.run]
      rw [same]
      exact .of_eq rfl rfl rfl

/-- The same, of a run that is known. -/
theorem of_run {r : Run α} {x : α} {st st' : RunState} (h : Posts limits r) (ran : r.run st = (x, st')) :
    st.machine.Posts limits st'.machine := by
  have posts := h st
  rwa [ran] at posts

end Run.Posts

/-- What an instruction decides and changes by itself. -/
theorem Interpreter.posts_choose (limits : Limits) (f : Frame) (previous : Option Bool)
    (children : List Block) (i : Instruction) :
    Run.Posts limits (choose limits f previous children i) :=
  Run.Posts.closed.writing.choose limits previous
    (fun m _ => Run.Posts.closed.mathStep (fun negative st => .contradict negative st.machine) f m)
    (.stopLoop f) (fun wait => .putOff f wait children) fun r _ c => .handOver f r children c

/-- **A run sends messages and moves actors, and does nothing else to the world.** -/
theorem Does.posts {limits : Limits} {f : Frame} {doing : Doing} {st st' : RunState}
    {deeds : List Deed} {r : Outcome × Option Bool} (h : Does limits f doing st deeds r st') :
    st.machine.Posts limits st'.machine := by
  have chosen {f : Frame} {previous : Option Bool} {children : List Block} {i : Instruction}
      {st st' : RunState} {x : Choice} (chose : (choose limits f previous children i).run st = (x, st')) :
      st.machine.Posts limits st'.machine :=
    (posts_choose limits f previous children i).of_run chose
  have opens {f : Frame} {c : Cursor} {st st' : RunState} {x : Option Outcome}
      (opened : (Loop.opens f c).run st = (x, st')) : st.machine.Posts limits st'.machine :=
    (Run.Posts.closed.opens f c).of_run opened
  have closes {f : Frame} {c : Cursor} {o : Outcome} {st st' : RunState} {x : Step}
      (closed : (Loop.closes f c o).run st = (x, st')) : st.machine.Posts limits st'.machine :=
    (Run.Posts.closed.closes f c o).of_run closed
  induction h with
  | settled chose | postponed chose | spread chose => exact chosen chose
  | within chose _ ih | loop chose _ ih | call chose _ ih => exact (chosen chose).trans ih
  | block _ ih => exact ih
  | nil | cancelled _ | tooDeep _ | refused _ _ => exact .refl _
  | stop _ _ ih => exact ih
  | go _ _ _ ih ih' => exact ih.trans ih'
  | ended _ opened => exact opens opened
  | last _ opened _ closed ih => exact ((opens opened).trans ih).trans (closes closed)
  | next _ opened _ closed _ ih ih' =>
      exact (((opens opened).trans ih).trans (closes closed)).trans ih'
  | entered _ _ _ left ih => exact ih.trans ((Run.Posts.closed.leave _ _ _ _ _).of_run left)

/-- Siblings. -/
theorem Interpreter.posts_run (limits : Limits) (f : Frame) (body : List Block) :
    Run.Posts limits (run limits f body) := by
  intro st
  obtain ⟨deeds, o, held, st', done⟩ := ends limits f (.siblings none body) st
  have ran : (run limits f body).run st = (o, st') := Run.outcome_eq done.sound
  rw [ran]
  exact done.posts

/-- Blocks in a context. -/
theorem Context.posts_runBlocks (c : Context) (m : Machine) (limits : Limits) (body : List Block) :
    m.Posts limits (c.runBlocks m limits body).2.2 :=
  Interpreter.posts_run limits c.frame body ⟨c.scope, m⟩

theorem Context.posts_runLine (c : Context) (m : Machine) (limits : Limits) (l : Line) :
    m.Posts limits (c.runLine m limits l).2.2 := by
  unfold runLine
  split
  · exact posts_runBlocks { c with frame := { c.frame with line := l.name } } m limits l.body
  · exact .refl m

end Blockwork
