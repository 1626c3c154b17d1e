import Blockwork.Proofs.Machine.Posting
import Blockwork.Proofs.Names

/-!
# Where a run is broken off

A run panics where a calculation in it does, and nowhere else.  The machine takes a note of it, and nothing
catches it: siblings end with the panic of a block, whatever calls and loops it is in, and all that comes
after it are the ends of the blocks and loops around it (`Machine.Breaks`).

No panic happens unless the magnitude limit is negative.  If it is, the addition of two numbers panics
already, in every context (`Context.panics_adding`).

## What is load-bearing

`Does.suffers` is an induction on derivations.  A calculation is no deed before its block has ended, so in
between the panic is in the outcome of the instruction (`Doing.Panics`).
-/

namespace Blockwork

open Interpreter

/-! ## Runs without a panic -/

/-- A run in which nothing panics. -/
def Run.Steady {α : Type} (r : Run α) : Prop :=
  ∀ st : RunState, (r.run st).2.machine.contradicted = st.machine.contradicted

namespace Run.Steady

variable {α β : Type}

theorem pure (x : α) : Steady (Pure.pure x : Run α) := fun _ => rfl

theorem bind {r : Run α} {k : α → Run β} (hr : Steady r) (hk : ∀ x, Steady (k x)) : Steady (r >>= k) :=
  fun st => (hk (r.run st).1 (r.run st).2).trans (hr st)

theorem closed : Closed Steady where
  pure := pure
  bind := bind
  scene _ _ := rfl
  changeScope _ _ := rfl
  roll _ _ := rfl
  useEffects _ _ := rfl
  changeWorld _ _ := rfl

theorem stopLoop (f : Frame) : Steady (Run.stopLoop f) := by
  have stops : Steady (Run.changeMachine fun m => (m.requestStop f.actor).2) := by
    intro st
    show (st.machine.requestStop f.actor).2.contradicted = _
    rcases st.machine.requestStop_cases f.actor with ⟨-, same⟩ | ⟨handle, -, same⟩
    · rw [same]
    · rw [same]
      rfl
  exact stops.bind fun _ => pure _

theorem putOff (f : Frame) (wait : Float) (body : List Block) :
    Steady (Interpreter.putOff f wait body) :=
  fun _ => rfl

theorem handOver (f : Frame) (r : Repeat) (body : List Block) (c : Cursor) :
    Steady (Interpreter.handOver f r body c) := by
  intro st
  unfold StateT.run
  cases taken : st.machine.takeSlot f.actor with
  | error e => simp only [Interpreter.handOver, taken]
  | ok result =>
      obtain ⟨-, -, same⟩ := Machine.takeSlot_eq_ok taken
      simp only [Interpreter.handOver, Loop.spread, taken, StateT.run]
      rw [same]
      rfl

/-- The same, of a run that is known. -/
theorem of_run {r : Run α} {x : α} {st st' : RunState} (h : Steady r) (ran : r.run st = (x, st')) :
    st'.machine.contradicted = st.machine.contradicted := by
  have steady := h st
  rwa [ran] at steady

end Run.Steady

/-- Only a calculation panics. -/
theorem Interpreter.steady_choose (limits : Limits) (f : Frame) (previous : Option Bool)
    (children : List Block) {i : Instruction} (other : ∀ m, i ≠ .math m) :
    Run.Steady (choose limits f previous children i) :=
  Run.Steady.closed.writing.choose limits previous (fun m same => absurd same (other m)) (.stopLoop f)
    (fun wait => .putOff f wait children) fun r _ c => .handOver f r children c

/-! ## Notes of panics -/

/-- A panic is noted exactly if there is one, and that takes a negative limit. -/
structure Machine.Suffers (limits : Limits) (panic : Prop) (m m' : Machine) : Prop where
  /-- What is noted. -/
  noted : m'.contradicted = true ↔ m.contradicted = true ∨ panic
  /-- What it takes. -/
  negative : panic → limits.magnitude < 0

namespace Machine.Suffers

variable {limits : Limits} {panic panic' : Prop} {m m' m'' : Machine}

/-- Nothing panics. -/
theorem steady (none : ¬ panic) (same : m'.contradicted = m.contradicted) : Suffers limits panic m m' where
  noted := by
    rw [same]
    exact ⟨.inl, fun either => either.resolve_right none⟩
  negative panics := absurd panics none

theorem trans (h : Suffers limits panic m m') (h' : Suffers limits panic' m' m'') :
    Suffers limits (panic ∨ panic') m m'' :=
  ⟨by rw [h'.noted, h.noted, or_assoc], fun either => either.elim h.negative h'.negative⟩

theorem congr (h : Suffers limits panic m m') (same : panic ↔ panic') : Suffers limits panic' m m' :=
  propext same ▸ h

end Machine.Suffers

theorem Run.suffers_mathStep {limits : Limits} {f : Frame} {m : MathStep} {st st' : RunState}
    {o : Outcome} (ran : (Run.mathStep limits f m).run st = (o, st')) :
    st.machine.Suffers limits (o = .error .panic) st'.machine := by
  let result := Scene.calculation ⟨⟨f, st.scope⟩, st.machine.world⟩ m limits.magnitude st.machine.dice
  cases made : result.1 with
  | ok x =>
      simp only [Run.mathStep, bind, StateT.bind, StateT.run, Run.scene, Run.roll, result, made] at ran
      cases ran
      exact .steady (by simp) rfl
  | error e =>
      simp only [Run.mathStep, bind, StateT.bind, StateT.run, Run.scene, Run.roll, result, made] at ran
      by_cases panics : e = .panic
      · subst panics
        cases ran
        exact ⟨by simp [Machine.contradicted, Machine.contradict],
          fun _ => Scene.negative_of_calculation made⟩
      · have quiet : e.isContradiction = false :=
          Bool.eq_false_iff.mpr fun noted => panics (Failure.isContradiction_iff.mp noted)
        simp only [quiet] at ran
        cases ran
        exact .steady (by simpa using panics) rfl

/-! ## Calculations that panic -/

/-- An instruction is a calculation, and it panics. -/
def Instruction.Panics : Instruction → Outcome → Prop
  | .math _, o => o = .error .panic
  | _, _ => False

/-- What is done is a calculation, and it panics. -/
def Doing.Panics : Doing → Outcome → Prop
  | .instruction _ _ i, o => i.Panics o
  | _, _ => False

/-- A calculation has panicked. -/
def Deed.Panics : Deed → Prop
  | .ran _ b o => b.instruction.Panics o
  | _ => False

/-- Some calculation has panicked. -/
def Deed.Panicked (deeds : List Deed) : Prop := ∃ x ∈ deeds, x.Panics

namespace Deed

variable {deeds deeds' : List Deed}

theorem panicked_append : Panicked (deeds ++ deeds') ↔ Panicked deeds ∨ Panicked deeds' := by
  simp [Panicked, or_and_right, exists_or]

theorem panicked_single {x : Deed} : Panicked [x] ↔ x.Panics := by simp [Panicked]

end Deed

/-- What is known of panics when an instruction has decided. -/
def Choice.Suffers (limits : Limits) (i : Instruction) (m m' : Machine) : Choice → Prop
  | .settled o _ => m.Suffers limits (i.Panics o) m'
  | _ => m'.contradicted = m.contradicted ∧ ∀ o, ¬ i.Panics o

theorem Interpreter.suffers_choose {limits : Limits} {f : Frame} {previous : Option Bool}
    {children : List Block} {i : Instruction} {st st' : RunState} {x : Choice}
    (chose : (choose limits f previous children i).run st = (x, st')) :
    x.Suffers limits i st.machine st'.machine := by
  by_cases math : ∃ m, i = .math m
  · obtain ⟨m, rfl⟩ := math
    obtain ⟨o, st₁, ran⟩ : ∃ o st₁, (Run.mathStep limits f m).run st = (o, st₁) := ⟨_, _, rfl⟩
    rw [choose, Run.bind_eq ran] at chose
    cases chose
    exact Run.suffers_mathStep ran
  · have other (m : MathStep) : i ≠ .math m := fun same => math ⟨m, same⟩
    have same := (steady_choose limits f previous children other).of_run chose
    have none (o : Outcome) : ¬ i.Panics o := by
      simp [Instruction.Panics]
    cases x with
    | settled o held => exact .steady (none o) same
    | _ => exact ⟨same, none⟩

/-- **A run notes a panic exactly if a calculation in it panics**, and that takes a negative limit. -/
theorem Does.suffers {limits : Limits} {f : Frame} {doing : Doing} {st st' : RunState}
    {deeds : List Deed} {r : Outcome × Option Bool} (h : Does limits f doing st deeds r st') :
    st.machine.Suffers limits (Deed.Panicked deeds ∨ doing.Panics r.1) st'.machine := by
  have opens {f : Frame} {c : Cursor} {st st' : RunState} {x : Option Outcome}
      (opened : (Loop.opens f c).run st = (x, st')) : st.machine.Suffers limits False st'.machine :=
    .steady not_false ((Run.Steady.closed.opens f c).of_run opened)
  have closes {f : Frame} {c : Cursor} {o : Outcome} {st st' : RunState} {x : Step}
      (closed : (Loop.closes f c o).run st = (x, st')) : st.machine.Suffers limits False st'.machine :=
    .steady not_false ((Run.Steady.closed.closes f c o).of_run closed)
  induction h with
  | settled chose => exact (suffers_choose chose).congr (by simp [Deed.Panicked, Doing.Panics])
  | postponed chose | spread chose =>
      obtain ⟨same, none⟩ := suffers_choose chose
      exact .steady (by simp [Deed.Panicked, Deed.Panics, Doing.Panics, none]) same
  | within chose _ ih | loop chose _ ih | call chose _ ih =>
      obtain ⟨same, none⟩ := suffers_choose chose
      exact ((Machine.Suffers.steady not_false same).trans ih).congr (by simp [Doing.Panics, none])
  | block _ ih =>
      exact ih.congr (by simp [Deed.panicked_append, Deed.panicked_single, Deed.Panics, Doing.Panics])
  | nil | tooDeep _ | refused _ _ => exact .steady (by simp [Deed.Panicked, Doing.Panics]) rfl
  | cancelled _ => exact .steady (by simp [Deed.Panicked, Deed.Panics, Doing.Panics]) rfl
  | stop _ _ ih => exact ih.congr (by simp [Doing.Panics])
  | go _ _ _ ih ih' => exact (ih.trans ih').congr (by simp [Deed.panicked_append, Doing.Panics])
  | ended _ opened => exact (opens opened).congr (by simp [Deed.Panicked, Deed.Panics, Doing.Panics])
  | last _ opened _ closed ih =>
      refine (((opens opened).trans ih).trans (closes closed)).congr ?_
      simp [Deed.panicked_append, Deed.panicked_single, Deed.Panics, Doing.Panics]
  | next _ opened _ closed _ ih ih' =>
      refine ((((opens opened).trans ih).trans (closes closed)).trans ih').congr ?_
      simp [Deed.panicked_append, Doing.Panics]
  | entered _ _ _ left ih =>
      have leaves := (Run.Steady.closed.leave _ _ _ _ _).of_run left
      refine (ih.trans (.steady not_false leaves)).congr ?_
      simp [Deed.Panicked, Deed.Panics, Doing.Panics]

/-! ## What a panic breaks off -/

/-- How siblings are broken off by a panic. -/
structure Machine.Breaks (limits : Limits) (deeds : List Deed) (o : Outcome) (m m' : Machine) : Prop
    extends Machine.Suffers limits (Deed.Panicked deeds) m m' where
  /-- Nothing catches it. -/
  uncaught : Deed.Panicked deeds → o = .error .panic
  /-- After it there are only the ends of what it is in the midst of. -/
  last : ∀ before x after, deeds = before ++ x :: after → x.Panics →
    ∀ y ∈ after, y.endsLoop = true ∨ ∃ g b, y = .ran g b (.error .panic)

namespace Deed

theorem Panics.eq_ran {x : Deed} (h : x.Panics) : ∃ f b, x = .ran f b (.error .panic) := by
  cases x with
  | ran f b o =>
      obtain ⟨id, i, children⟩ := b
      cases i with
      | math m => exact ⟨f, _, congrArg (Deed.ran f ⟨id, .math m, children⟩) h⟩
      | _ => cases h
  | _ => cases h

end Deed

theorem Does.breaks {limits : Limits} {f : Frame} {previous held : Option Bool} {body : List Block}
    {st st' : RunState} {deeds : List Deed} {o : Outcome}
    (h : Does limits f (.siblings previous body) st deeds (o, held) st') :
    st.machine.Breaks limits deeds o st'.machine where
  toSuffers := h.suffers.congr (by simp [Doing.Panics])
  uncaught := by
    rintro ⟨x, done, panics⟩
    obtain ⟨g, b, rfl⟩ := panics.eq_ran
    exact (h.error_iff .panic).mpr (List.mem_filterMap.mpr ⟨_, done, rfl⟩)
  last before x after split panics y mem := by
    obtain ⟨g, b, rfl⟩ := panics.eq_ran
    obtain ⟨calls, outer, previous', s, -, -, cut⟩ := h.cutsShort split
    obtain ⟨-, ends⟩ := cut trivial
    cases loop : y.endsLoop with
    | true => exact .inl rfl
    | false =>
        have inside : y ∈ outer.map (Deed.ended (.error .panic)) := by
          rw [← ends]
          exact List.mem_filter.mpr ⟨mem, by rw [loop]; rfl⟩
        obtain ⟨z, -, rfl⟩ := List.mem_map.mp inside
        exact .inr ⟨z.1, z.2, rfl⟩

/-! ## A calculation under a negative limit -/

/-- The sum of two numbers. -/
def MathStep.adding : MathStep where
  op := some .add
  left := some (.number (.ofFloat 1))
  right := some (.number (.ofFloat 1))
  result := "sum"

/-- A block that adds two numbers. -/
def Block.adding : Block := ⟨⟨2⟩, .math .adding, []⟩

theorem Scene.calculation_adding (s : Scene) {limit : Float} (negative : limit < 0) (dice : Dice) :
    (s.calculation .adding limit dice).1 = .error .panic := by
  have named : Template.isName "sum".toList = true := by decide
  have name : s.variableName "sum" = "sum" := s.variableName_spelled named (m := none) nofun
  have panics : (MathOp.add.apply 1 1 limit dice).1 = .error .panic :=
    (MathOp.add.apply_eq_panic_iff 1 1 limit dice).mpr ⟨negative, 1 + 1, rfl, by decide +kernel⟩
  have operand (what : String) : s.number (some (.number (.ofFloat 1))) what = .ok 1 := rfl
  simp only [calculation, MathStep.adding, operand, name]
  exact congrArg (·.map ("sum", ·)) panics

/-- The failure of a calculation is that of the block. -/
theorem Run.mathStep_of_error {limits : Limits} {f : Frame} {m : MathStep} {st : RunState} {e : Failure}
    (made : (Scene.calculation ⟨⟨f, st.scope⟩, st.machine.world⟩ m limits.magnitude st.machine.dice).1 =
      .error e) : ((Run.mathStep limits f m).run st).1 = .error e := by
  simp only [Run.mathStep, bind, StateT.bind, StateT.run, Run.scene, Run.roll, made]
  split <;> rfl

/-- **Under a negative limit the addition of two numbers panics**, whatever the context is. -/
theorem Context.panics_adding {limits : Limits} (negative : limits.magnitude < 0) (c : Context)
    (m : Machine) : (c.runBlocks m limits [.adding]).1 = .error .panic ∧
      (c.runBlocks m limits [.adding]).2.2.contradicted = true := by
  have failed : ((Run.mathStep limits c.frame .adding).run ⟨c.scope, m⟩).1 = .error .panic :=
    Run.mathStep_of_error (Scene.calculation_adding ⟨c, m.world⟩ negative m.dice)
  rcases added : (Run.mathStep limits c.frame .adding).run ⟨c.scope, m⟩ with ⟨o, st⟩
  rw [added] at failed
  obtain rfl : o = .error .panic := failed
  have chose : (choose limits c.frame none [] (.math .adding)).run ⟨c.scope, m⟩ =
      (.settled (.error .panic) none, st) := by
    rw [choose, Run.bind_eq added]
    rfl
  have block : Does limits c.frame (.block none .adding) ⟨c.scope, m⟩ _ (.error .panic, none) _ :=
    .block (.settled chose)
  have done : Does limits c.frame (.siblings none [.adding]) ⟨c.scope, m⟩ _ (.error .panic, none) _ :=
    .stop block rfl
  have ran : (run limits c.frame [.adding]).run ⟨c.scope, m⟩ = _ := Run.outcome_eq done.sound
  have noted := done.breaks.noted.mpr (.inr ⟨_, List.mem_singleton_self _, rfl⟩)
  rw [runBlocks, exec, ran]
  exact ⟨rfl, noted⟩

end Blockwork
