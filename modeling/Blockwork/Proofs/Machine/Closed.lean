import Blockwork.Proofs.Machine.Iterations
import Blockwork.Proofs.Panic

/-!
# Properties of runs that are closed under what blocks do

Whatever a block does, apart from its children, calls and loops, is put together from a handful of runs: it
looks at the scene, changes variables or the log, uses the dice, sends or moves within the world, or
requests a side effect.  A property that these runs have and that sequencing keeps holds of all such
blocks, of an iteration if it holds of the body, of the two halves of an iteration, and of the way back
from a call (`Run.Closed`).  Much of it holds already of a property that does not bear a change of
variables (`Run.Reading`), and all but the log and the way back of one that bears nothing else of it
(`Run.Writing`).

To stop a loop, to put work off and to look at a signal are not among the runs.  It is there that such
properties differ, and each says of these what it has to say.  Nor is the note of a panic: a calculation makes
it, and only if the magnitude limit is negative (`Run.mathStep_of_sound`).
-/

namespace Blockwork

namespace Run

/-- With a limit that numbers can keep to, nothing is noted. -/
theorem mathStep_of_sound {limits : Limits} (sound : ¬ limits.Contradictory) (f : Frame) (m : MathStep) :
    Run.mathStep limits f m = (do
      let s ← Run.scene f
      match ← Run.roll (s.calculation m limits.magnitude) with
      | .error e => pure (.error e)
      | .ok (name, x) =>
        Run.set name (.number x)
        pure .success) := by
  funext st
  simp only [Run.mathStep, bind, StateT.bind, Run.scene, Run.roll]
  cases made : (Scene.calculation ⟨⟨f, st.scope⟩, st.machine.world⟩ m limits.magnitude
      st.machine.dice).1 with
  | ok _ => rfl
  | error e =>
      have quiet : e.isContradiction = false :=
        Bool.eq_false_iff.mpr fun noted =>
          sound (Scene.negative_of_calculation (made.trans (congrArg _ (Failure.isContradiction_iff.mp noted))))
      simp only [quiet, Bool.false_eq_true, if_false]

/-- Uses the side effects. -/
def useEffects {α : Type} (g : Effects → α × Effects) : Run α := fun st =>
  ((g st.machine.effects).1,
    { st with machine := { st.machine with effects := (g st.machine.effects).2 } })

/-- Where actors are moved, the world is still the one that was looked at. -/
theorem teleport_eq (f : Frame) (place : Option Value) : Run.teleport f place = (do
    let s ← Run.scene f
    match s.moveTo place with
    | .error e => pure (.error e)
    | .ok (l, actors) =>
      match s.world.moveAll l actors with
      | .error e => pure (.error (.world e))
      | .ok _ =>
        Run.changeMachine fun m => { m with world := m.world.tryMoveAll l actors }
        pure .success) := by
  funext st
  cases found : Scene.moveTo ⟨⟨f, st.scope⟩, st.machine.world⟩ place with
  | error e => simp only [Run.teleport, bind, StateT.bind, Run.scene, found]
  | ok goal =>
      cases moved : st.machine.world.moveAll goal.1 goal.2 with
      | error e => simp only [Run.teleport, bind, StateT.bind, Run.scene, found, moved]
      | ok world =>
          simp only [Run.teleport, bind, StateT.bind, Run.scene, found, moved, Run.changeMachine,
            World.tryMoveAll]

/-- A property of runs that is closed under what blocks do without changing variables or the log. -/
structure Reading (P : {α : Type} → Run α → Prop) : Prop where
  /-- Nothing is done. -/
  pure {α : Type} (x : α) : P (Pure.pure x : Run α)
  /-- One thing is done after another. -/
  bind {α β : Type} {r : Run α} {k : α → Run β} (first : P r) (rest : ∀ x, P (k x)) : P (r >>= k)
  /-- The scene is looked at. -/
  scene (f : Frame) : P (Run.scene f)
  /-- The dice are used. -/
  roll {α : Type} (g : Dice → α × Dice) : P (Run.roll g)
  /-- The side effects are used. -/
  useEffects {α : Type} (g : Effects → α × Effects) : P (Run.useEffects g)
  /-- Messages are sent, or actors are moved. -/
  changeWorld {g : World → World} (usual : World.Usual g) :
    P (Run.changeMachine fun m => { m with world := g m.world })

/-- A property of runs that is closed under what blocks do to anything but the log. -/
structure Writing (P : {α : Type} → Run α → Prop) : Prop extends Reading P where
  /-- A variable is written. -/
  set (name : String) (d : Datum) : P (Run.set name d)
  /-- A variable is cleared. -/
  clear (name : String) : P (Run.clear name)

/-- A property of runs that is closed under what blocks do. -/
structure Closed (P : {α : Type} → Run α → Prop) : Prop extends Reading P where
  /-- Variables or the log change. -/
  changeScope (g : Scope → Scope) : P (Run.changeScope g)

variable {P : {α : Type} → Run α → Prop}

/-! ## What changes no variable -/

namespace Reading

variable (reading : Reading P)

include reading

theorem evaluate (f : Frame) (c : Condition) : P (Run.evaluate f c) :=
  reading.bind (reading.scene f) fun _ => reading.roll _

theorem message (f : Frame) (shown : Option Value) : P (Run.message f shown) := by
  refine reading.bind (reading.scene f) fun s => ?_
  split
  · exact reading.pure _
  · next text actors _ =>
    exact reading.bind (reading.changeWorld (World.usual_sendAll actors text)) fun _ => reading.pure _

theorem teleport (f : Frame) (place : Option Value) : P (Run.teleport f place) := by
  rw [teleport_eq]
  refine reading.bind (reading.scene f) fun s => ?_
  split
  · exact reading.pure _
  split
  · exact reading.pure _
  · exact reading.bind (reading.changeWorld (World.usual_tryMoveAll _ _)) fun _ => reading.pure _

theorem sideEffect (f : Frame) (r : Request) : P (Run.sideEffect f r) := by
  refine reading.bind (reading.scene f) fun s => ?_
  dsimp only
  split
  · exact reading.pure _
  · let answer (e : Effects) := e.perform f.actor (Text.trim r.kind) (r.arguments.map s.resolve)
    refine cast (congrArg (fun r : Run Outcome => P r) (funext fun st => ?_))
      (reading.useEffects fun e => ((answer e).1.casesOn
        (fun reason => .error (.effect (Text.trim r.kind) reason)) fun _ => .success, (answer e).2))
    unfold Run.useEffects
    dsimp only
    cases (st.machine.effects.perform f.actor (Text.trim r.kind) (r.arguments.map s.resolve)).1 with
    | ok _ => rfl
    | error _ => rfl

theorem return_ (f : Frame) (v : Option Value) : P (Run.return_ f v) :=
  reading.bind (reading.scene f) fun _ => reading.pure _

theorem ask (f : Frame) (c : Cursor) : P (Loop.ask f c) := by
  unfold Loop.ask
  split
  · exact reading.evaluate f _
  · exact reading.pure _

theorem close (f : Frame) (c : Cursor) : P (Loop.close f c) := by
  unfold Loop.close
  split
  · exact reading.pure _
  · exact reading.pure _
  · refine reading.bind (reading.ask f c) fun answer => ?_
    split <;> exact reading.pure _
  · exact reading.pure _
  · exact reading.pure _

theorem proceed (f : Frame) (c : Cursor) : P (Loop.proceed f c) := by
  unfold Loop.proceed
  split
  · refine reading.bind (reading.ask f c.next) fun answer => ?_
    split <;> exact reading.pure _
  · exact reading.pure _

/-- A loop comes to its body by asking and publishing. -/
theorem opens_of_publish (f : Frame) {c : Cursor} (publishes : P (Loop.publish c)) :
    P (Loop.opens f c) := by
  unfold Loop.opens
  split
  · exact reading.bind (reading.close f c) fun _ => reading.pure _
  split
  · refine reading.bind (reading.ask f c) fun answer => ?_
    split
    · exact reading.bind publishes fun _ => reading.pure _
    · exact reading.pure _
    · exact reading.pure _
  · exact reading.bind publishes fun _ => reading.pure _

theorem closes (f : Frame) (c : Cursor) (o : Outcome) : P (Loop.closes f c o) := by
  unfold Loop.closes
  split
  · exact reading.proceed f c
  · exact reading.proceed f c
  · exact reading.pure _
  · exact reading.pure _

end Reading

/-! ## What changes variables -/

namespace Writing

variable (writing : Writing P)

include writing

theorem variableStep (f : Frame) (v : VariableStep) : P (Run.variableStep f v) := by
  refine writing.bind (writing.scene f) fun s => writing.bind (writing.roll _) fun update => ?_
  split
  · exact writing.pure _
  split
  · exact writing.bind (writing.set _ _) fun _ => writing.pure _
  · exact writing.bind (writing.clear _) fun _ => writing.pure _
  · exact writing.pure _

theorem mathStep {limits : Limits}
    (contradict : limits.Contradictory → P (Run.changeMachine Machine.contradict)) (f : Frame)
    (m : MathStep) : P (Run.mathStep limits f m) := by
  by_cases sound : limits.Contradictory
  · refine writing.bind (writing.scene f) fun s => writing.bind (writing.roll _) fun result => ?_
    split
    · split
      · exact writing.bind (contradict sound) fun _ => writing.pure _
      · exact writing.pure _
    · exact writing.bind (writing.set _ _) fun _ => writing.pure _
  · rw [mathStep_of_sound sound]
    refine writing.bind (writing.scene f) fun s => writing.bind (writing.roll _) fun result => ?_
    split
    · exact writing.pure _
    · exact writing.bind (writing.set _ _) fun _ => writing.pure _

theorem textStep (limits : Limits) (f : Frame) (t : TextStep) : P (Run.textStep limits f t) := by
  refine writing.bind (writing.scene f) fun s => ?_
  split
  · exact writing.pure _
  · exact writing.bind (writing.set _ _) fun _ => writing.pure _

theorem publish (c : Cursor) : P (Loop.publish c) := by
  have item : P (Loop.publishItem c) := by
    unfold Loop.publishItem
    split
    · exact writing.set _ _
    · exact writing.pure _
  exact writing.bind item fun _ => writing.bind (writing.set _ _) fun _ => writing.set _ _

theorem opens (f : Frame) (c : Cursor) : P (Loop.opens f c) :=
  writing.opens_of_publish f (writing.publish c)

/-- A value is handed back. -/
theorem deliver (f : Frame) (c : Call) (o : Outcome) : P (Interpreter.deliver f c o) := by
  unfold Interpreter.deliver
  split
  · exact writing.pure _
  · refine writing.bind (writing.scene f) fun s => ?_
    split
    · exact writing.set _ _
    · exact writing.clear _

end Writing

namespace Closed

variable (closed : Closed P)

include closed

theorem writing : Writing P where
  toReading := closed.toReading
  set name d := closed.changeScope (·.set name d)
  clear name := closed.changeScope (·.clear name)

theorem record (f : Frame) (b : Block) (o : Outcome) : P (Run.record f b o) :=
  closed.changeScope (·.record f.logLimit b o)

theorem variableStep (f : Frame) (v : VariableStep) : P (Run.variableStep f v) :=
  closed.writing.variableStep f v

theorem mathStep {limits : Limits}
    (contradict : limits.Contradictory → P (Run.changeMachine Machine.contradict)) (f : Frame)
    (m : MathStep) : P (Run.mathStep limits f m) :=
  closed.writing.mathStep contradict f m

theorem textStep (limits : Limits) (f : Frame) (t : TextStep) : P (Run.textStep limits f t) :=
  closed.writing.textStep limits f t

theorem publish (c : Cursor) : P (Loop.publish c) := closed.writing.publish c

theorem opens (f : Frame) (c : Cursor) : P (Loop.opens f c) := closed.writing.opens f c

theorem enter (f : Frame) {body : Run Outcome} (inner : P body) (c : Cursor) :
    P (Loop.enter f body c) := by
  refine closed.bind (closed.publish c) fun _ => closed.bind inner fun outcome => ?_
  split
  · exact closed.proceed f c
  · exact closed.proceed f c
  · exact closed.pure _
  · exact closed.pure _

theorem step (f : Frame) {body : Run Outcome} (inner : P body) (c : Cursor) :
    P (Loop.step f body c) := by
  unfold Loop.step
  split
  · refine closed.bind (closed.ask f c) fun answer => ?_
    split
    · exact closed.enter f inner c
    · exact closed.pure _
    · exact closed.pure _
  · exact closed.enter f inner c

theorem iterate (f : Frame) {body : Run Outcome} (inner : P body) (c : Cursor) :
    P (Loop.iterate f body c) := by
  unfold Loop.iterate
  split
  · exact closed.bind (closed.close f c) fun _ => closed.pure _
  · exact closed.step f inner c

/-- The way back from a call. -/
theorem leave (f : Frame) (c : Call) (caller : Context) (inner : Frame) (o : Outcome) :
    P (Interpreter.leave f c caller inner o) := by
  unfold Interpreter.leave
  split
  · exact closed.bind (closed.changeScope _) fun _ => closed.pure _
  · exact closed.bind (closed.changeScope _) fun _ => closed.bind (closed.writing.deliver f c _) fun _ => closed.pure _

end Closed

end Run

end Blockwork
