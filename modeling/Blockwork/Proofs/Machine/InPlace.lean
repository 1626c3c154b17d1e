import Blockwork.Proofs.Machine.Deeds
import Blockwork.Proofs.Trace.Faithful

/-!
# Running in place

A run is given its frame and cannot change it, so what it leaves of a context needs no proof.  An
implementation may instead hold one context and change it as it goes.  It puts another subject into the
context for the children of a block and the old one back afterwards, and for a call it makes a context
of its own, which it throws away or takes over from.  Whether it forgets anything on some way out is then
a question about every way out.

`InPlace` runs blocks like that.  It agrees with the interpreter on every outcome, variable and log entry
and on the machine (`InPlace.agrees_blocks`), and the frame in its context is afterwards what it was.

## What is load-bearing

* `InPlace.Agrees` says in one equation that a run in place does what another run does in a given frame
  and that the frame is there again afterwards.  It is closed under sequencing, and `Agrees.under` is the
  only rule with two frames in it.
* `Run.Careful` is what blocks without children have in common: they work out their result first and
  write afterwards, so one that fails has written nothing.
-/

namespace Blockwork

/-- A run that holds its whole context and changes it. -/
abbrev InPlace := StateM (Context × Machine)

namespace InPlace

/-- Does what a run does that is given the frame. -/
def lift {α : Type} (r : Frame → Run α) : InPlace α := fun (c, m) =>
  let (x, st) := (r c.frame).run ⟨c.scope, m⟩
  (x, (⟨c.frame, st.scope⟩, st.machine))

/-- Puts another subject into the context, and hands back the one that was there. -/
def aim (t : Target) : InPlace Target := fun (c, m) =>
  (c.frame.target, ({ c with frame := { c.frame with target := t } }, m))

/-- Does something with another subject, and puts the old one back. -/
def under (t : Target) (body : InPlace Outcome) : InPlace Outcome := do
  let previous ← aim t
  let outcome ← body
  let _ ← aim previous
  pure outcome

/-! ## Loops -/

/-- One iteration of a loop, or its end. -/
def iterate (body : InPlace Outcome) (c : Cursor) : InPlace Step := do
  match ← lift (Loop.opens · c) with
  | some o => pure (.done o)
  | none => do
    let outcome ← body
    lift (Loop.closes · c outcome)

/-- Runs a loop to its end, with the given number of iterations left below its limit. -/
def cycle (body : InPlace Outcome) : Nat → Cursor → InPlace Outcome
  | 0, c => do
    if ← lift fun f => Run.isRaised f.cancel then pure .success else lift (Loop.close · c)
  | n + 1, c => do
    if ← lift fun f => Run.isRaised f.cancel then pure .success
    else
      match ← iterate body c with
      | .done o => pure o
      | .next c => cycle body n c

/-- Runs or hands over a loop. -/
def repeat_ (limits : Limits) (r : Repeat) (children : List Block) (body : InPlace Outcome) :
    InPlace Outcome := do
  match Cursor.start (← lift Run.scene) limits r with
  | .error e => pure (.error e)
  | .ok c => if r.isAsync then lift (Loop.spread · r.interval children c) else cycle body c.room c

/-! ## Trees of blocks and calls -/

/-- Runs a body later, or at once if the wait is less than a tick. -/
def delay (ticks : Option Value) (children : List Block) (body : InPlace Outcome) : InPlace Outcome := do
  match (← lift Run.scene).number ticks "ticks" with
  | .error e => pure (.error e)
  | .ok wait =>
    if 0 < Interpreter.wholeTicks wait then lift (Interpreter.postpone · wait children) else body

/-- Runs a body with the subject that a block names. -/
def target (t : Targeting) (body : InPlace Outcome) : InPlace Outcome := do
  let s ← lift Run.scene
  match ← lift fun _ => Run.roll (s.findTarget t) with
  | .error e => pure (.error e)
  | .ok found => under found body

/-- Does what an instruction says. -/
def perform (limits : Limits) (call : Call → InPlace Outcome) (previous : Option Bool)
    (children : List Block) (body : InPlace Outcome) : Instruction → InPlace (Outcome × Option Bool)
  | .event _ | .function _ => pure (.success, none)
  | .if_ condition => do
    match ← lift (Run.evaluate · condition) with
    | .ok true => do pure (← body, some true)
    | .ok false => pure (.success, some false)
    | .error e => pure (.error e, none)
  | .else_ =>
    match previous with
    | some false => do pure (← body, none)
    | _ => pure (.success, none)
  | .repeat_ r => do pure (← repeat_ limits r children body, none)
  | .target t => do pure (← target t body, none)
  | .callFunction c => do pure (← call c, none)
  | .variable_ v => do pure (← lift (Run.variableStep · v), none)
  | .math m => do pure (← lift (Run.mathStep limits · m), none)
  | .text t => do pure (← lift (Run.textStep limits · t), none)
  | .message shown => do pure (← lift (Run.message · shown), none)
  | .teleport place => do pure (← lift (Run.teleport · place), none)
  | .sideEffect r => do pure (← lift (Run.sideEffect · r), none)
  | .delay ticks => do pure (← delay ticks children body, none)
  | .stopLoop => do pure (← lift Run.stopLoop, none)
  | .break_ => pure (.break_, none)
  | .continue_ => pure (.continue_, none)
  | .return_ value => do pure (← lift (Run.return_ · value), none)

mutual

/-- Runs a block, given whether the condition just before it held. -/
def block (limits : Limits) (call : Call → InPlace Outcome) (previous : Option Bool) :
    Block → InPlace (Outcome × Option Bool)
  | ⟨id, instruction, children⟩ => do
    let result ← perform limits call previous children (blocks limits call none children) instruction
    lift (Run.record · ⟨id, instruction, children⟩ result.1)
    pure result

/-- Runs siblings in order until one does not succeed. -/
def blocks (limits : Limits) (call : Call → InPlace Outcome) (previous : Option Bool) :
    List Block → InPlace Outcome
  | [] => pure .success
  | b :: rest => do
    let (outcome, held) ← block limits call previous b
    if outcome.isSuccess then blocks limits call held rest else pure outcome

end

/-- Calls a function.  Its body runs in a context of its own, which is thrown away if the body fails and
otherwise taken over from. -/
def enter (run : List Block → InPlace Outcome) (c : Call) : InPlace Outcome := fun (caller, m) =>
  match Interpreter.callee ⟨caller, m.world⟩ c with
  | .error e => (.error e, (caller, m))
  | .ok (head, b, values) =>
    let (outcome, (callee, m)) :=
      (run b.children).run (Interpreter.bindParameters caller head.parameters values, m)
    match outcome with
    | .error e => (.error e, (caller, m))
    | outcome =>
      let (_, state) := (lift (Interpreter.deliver · c outcome)).run (caller.mergeBack callee, m)
      (.success, state)

/-- Runs a call block when the given number of calls may still be nested. -/
def call (limits : Limits) : Nat → Call → InPlace Outcome
  | 0, c => pure (.error (.excess (.callDepth limits.maxCallDepth (Text.trim c.function))))
  | n + 1, c => enter (fun body => blocks limits (call limits n) none body) c

/-- Runs siblings in the context that is held. -/
def runBlocks (limits : Limits) (body : List Block) : InPlace Outcome := fun (c, m) =>
  blocks limits (call limits (Interpreter.callsLeft limits c.frame)) none body (c, m)

/-! ## Agreement -/

/-- From a context with a given frame, the first does what the second does in the frame, and leaves the
frame as it was. -/
def Agrees {α : Type} (f : Frame) (p : InPlace α) (r : Run α) : Prop :=
  ∀ st, p.run (⟨f, st.scope⟩, st.machine) =
    ((r.run st).1, (⟨f, (r.run st).2.scope⟩, (r.run st).2.machine))

theorem run_under (t : Target) (p : InPlace Outcome) (c : Context) (m : Machine) :
    StateT.run (under t p) (c, m) =
      let (outcome, after, m) := StateT.run p ({ c with frame := { c.frame with target := t } }, m)
      (outcome, { after with frame := { after.frame with target := c.frame.target } }, m) := rfl

namespace Agrees

variable {α β : Type} {f : Frame}

theorem lift (r : Frame → Run α) : Agrees f (InPlace.lift r) (r f) := fun _ => rfl

theorem pure (x : α) : Agrees f (Pure.pure x) (Pure.pure x) := fun _ => rfl

/-- One thing after another, when something is known of what the first yields. -/
theorem bind_of_yields {P : α → Prop} {p : InPlace α} {r : Run α} {k : α → InPlace β}
    {k' : α → Run β} (first : Agrees f p r) (yields : Run.Yields P r)
    (rest : ∀ x, P x → Agrees f (k x) (k' x)) : Agrees f (p >>= k) (r >>= k') := by
  intro st
  show StateT.run (k (StateT.run p (⟨f, st.scope⟩, st.machine)).1)
    (StateT.run p (⟨f, st.scope⟩, st.machine)).2 = _
  rw [first st]
  exact rest _ (yields st) _

theorem bind {p : InPlace α} {r : Run α} {k : α → InPlace β} {k' : α → Run β} (first : Agrees f p r)
    (rest : ∀ x, Agrees f (k x) (k' x)) : Agrees f (p >>= k) (r >>= k') :=
  first.bind_of_yields (P := fun _ => True) (fun _ => trivial) fun x _ => rest x

/-- Another subject is in force for the body, and the old one is back afterwards. -/
theorem under {t : Target} {p : InPlace Outcome} {r : Run Outcome}
    (body : Agrees { f with target := t } p r) : Agrees f (InPlace.under t p) r := by
  intro st
  rw [run_under, body st]

/-! ### Loops -/

theorem iterate {p : InPlace Outcome} {r : Run Outcome} (body : Agrees f p r) (c : Cursor) :
    Agrees f (InPlace.iterate p c) (Loop.iterate f r c) := by
  rw [Loop.iterate_eq]
  refine .bind (.lift (Loop.opens · c)) fun opened => ?_
  cases opened with
  | some o => exact .pure _
  | none => exact .bind body fun o => .lift (Loop.closes · c o)

theorem cycle {p : InPlace Outcome} {r : Run Outcome} (body : Agrees f p r) (n : Nat) :
    ∀ {c : Cursor}, c.room = n → Agrees f (InPlace.cycle p n c) (Loop.cycle f r n c) := by
  induction n with
  | zero =>
      intro c _
      refine .bind (.lift fun f => Run.isRaised f.cancel) fun raised => ?_
      split
      · exact .pure _
      · exact .lift (Loop.close · c)
  | succ n ih =>
      intro c room
      refine .bind (.lift fun f => Run.isRaised f.cancel) fun raised => ?_
      split
      · exact .pure _
      · have once : Agrees f (InPlace.iterate p c) (Loop.step f r c) := by
          have whole := iterate body c
          rwa [Loop.iterate, room] at whole
        refine once.bind_of_yields (Loop.yields_step c) fun step next => ?_
        cases step with
        | done o => exact .pure o
        | next c' =>
            obtain rfl := next c' rfl
            have below : c.iteration < c.limit := by
              unfold Cursor.room at room
              omega
            have left := Cursor.room_next below
            exact ih (by omega)

theorem repeat_ {limits : Limits} {p : InPlace Outcome} {r : Run Outcome} (body : Agrees f p r)
    (q : Repeat) (children : List Block) :
    Agrees f (InPlace.repeat_ limits q children p) (Loop.repeat_ limits f q children r) := by
  refine .bind (.lift Run.scene) fun s => ?_
  cases Cursor.start s limits q with
  | error e => exact .pure _
  | ok c =>
      dsimp only
      split
      · exact .lift (Loop.spread · q.interval children c)
      · exact cycle body c.room rfl

/-! ### Trees of blocks and calls -/

theorem delay {p : InPlace Outcome} {r : Run Outcome} (body : Agrees f p r) (ticks : Option Value)
    (children : List Block) :
    Agrees f (InPlace.delay ticks children p) (Interpreter.delay f ticks children r) := by
  refine .bind (.lift Run.scene) fun s => ?_
  cases s.number ticks "ticks" with
  | error e => exact .pure _
  | ok wait =>
      dsimp only
      split
      · exact .lift (Interpreter.postpone · wait children)
      · exact body

/-- One case for each instruction. -/
theorem perform {limits : Limits} {call : Call → InPlace Outcome} {call' : Interpreter.Caller}
    {p : InPlace Outcome} {r : Frame → Run Outcome} (calls : ∀ c, Agrees f (call c) (call' f c))
    (body : ∀ g, Agrees g p (r g)) (previous : Option Bool) (children : List Block) (i : Instruction) :
    Agrees f (InPlace.perform limits call previous children p i)
      (Interpreter.perform limits call' f previous children r i) := by
  have alone {q : InPlace Outcome} {o : Run Outcome} (h : Agrees f q o) (held : Option Bool) :
      Agrees f (do return (← q, held)) (do return (← o, held)) := h.bind fun _ => .pure _
  cases i with
  | event _ | function _ | break_ | continue_ => exact .pure _
  | if_ condition =>
      refine .bind (.lift (Run.evaluate · condition)) fun answer => ?_
      rcases answer with e | _ | _
      · exact .pure _
      · exact .pure _
      · exact alone (body f) _
  | else_ =>
      rcases previous with _ | _ | _
      · exact .pure _
      · exact alone (body f) _
      · exact .pure _
  | repeat_ q => exact alone (repeat_ (body f) q children) _
  | target t =>
      simp only [InPlace.perform, Interpreter.perform, InPlace.target, bind_assoc]
      refine .bind (.lift Run.scene) fun s => .bind (.lift fun _ => Run.roll (s.findTarget t)) fun found => ?_
      cases found with
      | error e => exact .pure _
      | ok found => exact alone (under (body { f with target := found })) _
  | callFunction c => exact alone (calls c) _
  | variable_ v => exact alone (.lift (Run.variableStep · v)) _
  | math m => exact alone (.lift (Run.mathStep limits · m)) _
  | text t => exact alone (.lift (Run.textStep limits · t)) _
  | message shown => exact alone (.lift (Run.message · shown)) _
  | teleport place => exact alone (.lift (Run.teleport · place)) _
  | sideEffect q => exact alone (.lift (Run.sideEffect · q)) _
  | delay ticks => exact alone (delay (body f) ticks children) _
  | stopLoop => exact alone (.lift Run.stopLoop) _
  | return_ value => exact alone (.lift (Run.return_ · value)) _

/-- A call whose body agrees in every frame. -/
theorem enter {p : List Block → InPlace Outcome} {r : Frame → List Block → Run Outcome}
    (bodies : ∀ g body, Agrees g (p body) (r g body)) (c : Call) :
    Agrees f (InPlace.enter p c) (Interpreter.enter r f c) := by
  intro st
  cases found : Interpreter.callee ⟨⟨f, st.scope⟩, st.machine.world⟩ c with
  | error e =>
      rw [Interpreter.enter_of_error found]
      show InPlace.enter p c (⟨f, st.scope⟩, st.machine) = _
      simp only [InPlace.enter, found]
  | ok result =>
      obtain ⟨head, b, values⟩ := result
      let inner := Interpreter.bindParameters ⟨f, st.scope⟩ head.parameters values
      rcases inside : (r inner.frame b.children).run ⟨inner.scope, st.machine⟩ with ⟨o, st₁⟩
      have body : StateT.run (p b.children) (inner, st.machine) =
          (o, (⟨inner.frame, st₁.scope⟩, st₁.machine)) := by
        have agreed := bodies inner.frame b.children ⟨inner.scope, st.machine⟩
        rwa [inside] at agreed
      rw [Interpreter.enter_of_ok found inside]
      show InPlace.enter p c (⟨f, st.scope⟩, st.machine) = _
      simp only [InPlace.enter, found, body, inner]
      cases o with
      | error e => rfl
      | _ => rfl

end Agrees

open Interpreter (Caller) in
mutual

theorem agrees_block {limits : Limits} {call : Call → InPlace Outcome} {call' : Caller}
    (calls : ∀ g c, Agrees g (call c) (call' g c)) : ∀ (b : Block) (f : Frame) (previous : Option Bool),
      Agrees f (block limits call previous b) (Interpreter.block limits call' f previous b)
  | ⟨id, i, children⟩, f, previous => by
      rw [block, Interpreter.block]
      have body (g : Frame) : Agrees g (blocks limits call none children)
          (Interpreter.blocks limits call' g none children) := agrees_blocks calls children g none
      refine .bind (.perform (calls f) body previous children i) fun result => ?_
      exact .bind (.lift (Run.record · ⟨id, i, children⟩ result.1)) fun _ => .pure _

/-- **A run in place agrees with the interpreter.** -/
theorem agrees_blocks {limits : Limits} {call : Call → InPlace Outcome} {call' : Caller}
    (calls : ∀ g c, Agrees g (call c) (call' g c)) :
    ∀ (bs : List Block) (f : Frame) (previous : Option Bool),
      Agrees f (blocks limits call previous bs) (Interpreter.blocks limits call' f previous bs)
  | [], f, previous => by
      rw [blocks, Interpreter.blocks]
      exact .pure _
  | b :: rest, f, previous => by
      rw [blocks, Interpreter.blocks]
      refine .bind (agrees_block calls b f previous) fun result => ?_
      dsimp only
      split
      · exact agrees_blocks calls rest f result.2
      · exact .pure _

end

/-- Calls agree, by induction on how many may still be nested. -/
theorem agrees_call (limits : Limits) (n : Nat) : ∀ (f : Frame) (c : Call),
    Agrees f (call limits n c) (Interpreter.call limits n f c) := by
  induction n with
  | zero => exact fun f c => .pure _
  | succ n ih =>
      exact fun f c => .enter (fun g body => agrees_blocks ih body g none) c

end InPlace

/-! ## Blocks that fail -/

/-- Whether an instruction runs the children of its block. -/
def Instruction.isContainer : Instruction → Bool
  | .if_ _ | .else_ | .repeat_ _ | .target _ | .delay _ => true
  | _ => false

/-- A run that leaves the overlay of variables as it is if it fails. -/
def Run.Careful (r : Run Outcome) : Prop :=
  ∀ st e, (r.run st).1 = .error e → (r.run st).2.scope.locals = st.scope.locals

namespace Run.Careful

variable {α : Type}

theorem of_silent {r : Run Outcome} (silent : Silent r) : Careful r := fun st _ _ => silent st

/-- What has succeeded has not failed. -/
theorem then_success (r : Run α) : Careful (do let _ ← r; pure .success) := by
  rintro st e ⟨⟩

theorem after {r : Run α} {k : α → Run Outcome} (silent : Silent r) (rest : ∀ x, Careful (k x)) :
    Careful (r >>= k) :=
  fun st e failed => (rest _ _ e failed).trans (silent st)

theorem pure (o : Outcome) : Careful (Pure.pure o) := of_silent (Silent.reading.pure o)

theorem variableStep (f : Frame) (v : VariableStep) : Careful (Run.variableStep f v) := by
  refine after (Silent.reading.scene f) fun s => after (Silent.reading.roll _) fun found => ?_
  split
  · exact pure _
  · split
    · exact then_success _
    · exact then_success _
    · exact pure _

theorem mathStep (limits : Limits) (f : Frame) (m : MathStep) : Careful (Run.mathStep limits f m) := by
  refine after (Silent.reading.scene f) fun s => after (Silent.reading.roll _) fun found => ?_
  split
  · split
    · exact after Silent.contradict fun _ => pure _
    · exact pure _
  · exact then_success _

theorem textStep (limits : Limits) (f : Frame) (t : TextStep) : Careful (Run.textStep limits f t) := by
  refine after (Silent.reading.scene f) fun s => ?_
  split
  · exact pure _
  · exact then_success _

/-- A call that fails puts the variables of its caller back. -/
theorem enter (run : Frame → List Block → Run Outcome) (f : Frame) (c : Call) :
    Careful (Interpreter.enter run f c) := by
  intro st e failed
  cases found : Interpreter.callee ⟨⟨f, st.scope⟩, st.machine.world⟩ c with
  | error e' => rw [Interpreter.enter_of_error found]
  | ok result =>
      obtain ⟨head, b, values⟩ := result
      let inner := Interpreter.bindParameters ⟨f, st.scope⟩ head.parameters values
      rcases inside : (run inner.frame b.children).run ⟨inner.scope, st.machine⟩ with ⟨o, st₁⟩
      rw [Interpreter.enter_of_ok found inside] at failed ⊢
      cases o with
      | error e' => rfl
      | _ => cases failed

theorem call (limits : Limits) (n : Nat) (f : Frame) (c : Call) :
    Careful (Interpreter.call limits n f c) := by
  cases n with
  | zero => exact pure _
  | succ n => exact enter _ f c

/-- One case for each instruction that runs no children. -/
theorem perform {limits : Limits} {call : Interpreter.Caller} {f : Frame}
    (calls : ∀ c, Careful (call f c)) (previous : Option Bool) (children : List Block)
    (inner : Frame → Run Outcome) {i : Instruction} (single : i.isContainer = false) :
    Careful (Prod.fst <$> Interpreter.perform limits call f previous children inner i) := by
  cases i with
  | event _ | function _ | break_ | continue_ => exact pure _
  | if_ _ | else_ | repeat_ _ | target _ | delay _ => cases single
  | callFunction c => exact calls c
  | variable_ v => exact variableStep f v
  | math m => exact mathStep limits f m
  | text t => exact textStep limits f t
  | message shown => exact of_silent (Silent.reading.message f shown)
  | teleport place => exact of_silent (Silent.reading.teleport f place)
  | sideEffect q => exact of_silent (Silent.reading.sideEffect f q)
  | stopLoop => exact of_silent (Silent.stopLoop f)
  | return_ value => exact of_silent (Silent.reading.return_ f value)

/-- To note a block in the log changes no variable. -/
theorem block {limits : Limits} {call : Interpreter.Caller} {f : Frame} (calls : ∀ c, Careful (call f c))
    (previous : Option Bool) {b : Block} (single : b.instruction.isContainer = false) :
    Careful (Prod.fst <$> Interpreter.block limits call f previous b) := by
  obtain ⟨id, i, children⟩ := b
  rw [Interpreter.block]
  intro st e failed
  have performed : Careful (Prod.fst <$> Interpreter.perform limits call f previous children
      (fun g => Interpreter.blocks limits call g none children) i) :=
    perform calls previous children _ single
  exact (Silent.record f ⟨id, i, children⟩ _ _).trans (performed st e failed)

end Run.Careful

/-- **What running leaves of a context.**  Running in place does what the interpreter does.  Whatever the
blocks, the functions, the context and the machine are, at whatever depth of calls and with whatever
outcome siblings or a single block end, the frame of the context is afterwards what it was: actor, line,
globals, roles, subject, functions, depth and room in the log.  A block that runs no children and fails
leaves the variables as they were, too. -/
theorem context_kept (limits : Limits) (m : Machine) (c : Context) :
    (∀ body, (InPlace.runBlocks limits body) (c, m) = c.runBlocks m limits body) ∧
    (∀ n previous bs,
      ((InPlace.blocks limits (InPlace.call limits n) previous bs) (c, m)).2.1.frame = c.frame) ∧
    ∀ n previous b,
      ((InPlace.block limits (InPlace.call limits n) previous b) (c, m)).2.1.frame = c.frame ∧
      (b.instruction.isContainer = false →
        ∀ e, ((InPlace.block limits (InPlace.call limits n) previous b) (c, m)).1.1 = .error e →
          ((InPlace.block limits (InPlace.call limits n) previous b) (c, m)).2.1.scope.locals =
            c.scope.locals) := by
  refine ⟨fun body => ?_, fun n previous bs => ?_, fun n previous b => ?_⟩
  · exact InPlace.agrees_blocks (InPlace.agrees_call limits _) body c.frame none ⟨c.scope, m⟩
  · have agreed : InPlace.Agrees c.frame (InPlace.blocks limits (InPlace.call limits n) previous bs) _ :=
      InPlace.agrees_blocks (InPlace.agrees_call limits n) bs c.frame previous
    exact congrArg (fun r => r.2.1.frame) (agreed ⟨c.scope, m⟩)
  · have agreed : InPlace.block limits (InPlace.call limits n) previous b (c, m) = _ :=
      InPlace.agrees_block (InPlace.agrees_call limits n) b c.frame previous ⟨c.scope, m⟩
    rw [agreed]
    exact ⟨rfl, fun single e failed =>
      Run.Careful.block (Run.Careful.call limits n c.frame) previous single ⟨c.scope, m⟩ e failed⟩

end Blockwork
