import Blockwork.Proofs.Context
import Blockwork.Proofs.Machine.Changes
import Blockwork.Proofs.Scene
import Blockwork.Proofs.Script

/-!
# Two runs of the same blocks

The same blocks run in two frames that resemble each other, on two machines with the same world, side
effects and dice.  If nothing is put off, stopped or handed over to the agenda, the two runs do the same
step by step: they have the same outcome, their variables, worlds, side effects and dice stay the same,
and neither touches the agenda, the slots or the signals.

`Run.Mirrors` is that relation, and `Interpreter.mirrors_run` says that it holds of the interpreter.

## What is load-bearing

The two runs may keep their variables in different places, one in an overlay that has grown for long
and the other in a fresh snapshot.  The relation is therefore about what a look-up finds.  That is
enough also where a call ends: what the caller takes over depends on what look-ups find before and after
it (`Context.get?_mergeBack`), although it is worked out from the names in overlay and snapshot.

The cancelling signals must not be raised on either side, or one run would leave a loop that the other
stays in.  Blocks that are *prompt* raise none.
-/

namespace Blockwork

/-! ## Prompt blocks -/

/-- Whether an instruction is done when it returns: it puts nothing off, stops no loop and hands none
over. -/
def Instruction.isPrompt : Instruction → Bool
  | .delay _ | .stopLoop => false
  | .repeat_ r => !r.isAsync
  | _ => true

/-- All blocks of some trees are prompt. -/
def Block.Prompt (bs : List Block) : Prop :=
  ∀ b ∈ Block.preorderAll bs, b.instruction.isPrompt = true

/-- All functions that a frame knows are prompt. -/
def Frame.Prompt (f : Frame) : Prop :=
  ∀ name b, f.functions.get? name = some b → Block.Prompt [b]

namespace Block.Prompt

theorem append_iff {bs cs : List Block} : Prompt (bs ++ cs) ↔ Prompt bs ∧ Prompt cs := by
  unfold Prompt
  rw [Block.preorderAll_append]
  exact List.forall_mem_append

/-- A tree is prompt if its root and the trees below it are. -/
theorem single_iff {b : Block} :
    Prompt [b] ↔ b.instruction.isPrompt = true ∧ Prompt b.children := by
  obtain ⟨id, instruction, children⟩ := b
  unfold Prompt
  rw [Block.preorderAll, Block.preorderAll, Block.preorder, List.append_nil, List.forall_mem_cons]

theorem cons_iff {b : Block} {bs : List Block} :
    Prompt (b :: bs) ↔ b.instruction.isPrompt = true ∧ Prompt b.children ∧ Prompt bs := by
  rw [← List.singleton_append, append_iff, single_iff, and_assoc]

end Block.Prompt

/-! ## Machines and states that resemble each other -/

/-- Machines whose runs see the same and can do the same. -/
structure Machine.Resembles (m m' : Machine) : Prop where
  /-- The same world. -/
  world : m.world = m'.world
  /-- The same side effects. -/
  effects : m.effects = m'.effects
  /-- The same dice. -/
  dice : m.dice = m'.dice
  /-- The same moment, if any, from which nothing has a meaning. -/
  contradiction : m.contradiction = m'.contradiction

/-- What a run of prompt blocks leaves as it was: the work for later, the loops in progress, the signals
and who is online. -/
structure Machine.Undisturbed (m m' : Machine) : Prop where
  /-- The work for later. -/
  agenda : m'.agenda = m.agenda
  /-- The loops in progress. -/
  slots : m'.slots = m.slots
  /-- The signals. -/
  signals : m'.signals = m.signals
  /-- Who is online. -/
  online : ∀ a, (m'.world.actor? a).isSome = (m.world.actor? a).isSome

namespace Machine.Undisturbed

variable {m m' m'' : Machine}

@[refl] theorem refl (m : Machine) : m.Undisturbed m := ⟨rfl, rfl, rfl, fun _ => rfl⟩

theorem trans (h : m.Undisturbed m') (h' : m'.Undisturbed m'') : m.Undisturbed m'' :=
  ⟨h'.agenda.trans h.agenda, h'.slots.trans h.slots, h'.signals.trans h.signals,
    fun a => (h'.online a).trans (h.online a)⟩

end Machine.Undisturbed

/-- States of two runs, in two frames, that resemble each other. -/
structure RunState.Resembles (f g : Frame) (st st' : RunState) : Prop where
  /-- Look-ups find the same. -/
  reads : Context.get? ⟨f, st.scope⟩ = Context.get? ⟨g, st'.scope⟩
  /-- The machines resemble each other. -/
  machine : st.machine.Resembles st'.machine
  /-- The first run is not cancelled. -/
  live : st.machine.signals.isRaised f.cancel = false
  /-- Nor is the second. -/
  live' : st'.machine.signals.isRaised g.cancel = false

/-! ## Runs that mirror each other -/

/-- What two runs have come to. -/
structure Run.Mirrored {α : Type} (f g : Frame) (st st' : RunState) (x y : α × RunState) : Prop where
  /-- The same result. -/
  result : x.1 = y.1
  /-- States that resemble each other. -/
  state : x.2.Resembles f g y.2
  /-- The first run has disturbed nothing. -/
  first : st.machine.Undisturbed x.2.machine
  /-- Nor has the second. -/
  second : st'.machine.Undisturbed y.2.machine

/-- Two runs that do the same from states that resemble each other. -/
def Run.Mirrors {α : Type} (f g : Frame) (r r' : Run α) : Prop :=
  ∀ st st' : RunState, st.Resembles f g st' → Run.Mirrored f g st st' (r.run st) (r'.run st')

namespace Run.Mirrors

variable {f g : Frame} {α β : Type}

/-- To have run on undisturbed machines that resemble each other. -/
theorem mirrored_of_undisturbed {st st' : RunState} {x y : α × RunState} (h : st.Resembles f g st')
    (result : x.1 = y.1) (reads : Context.get? ⟨f, x.2.scope⟩ = Context.get? ⟨g, y.2.scope⟩)
    (machine : x.2.machine.Resembles y.2.machine) (first : st.machine.Undisturbed x.2.machine)
    (second : st'.machine.Undisturbed y.2.machine) : Run.Mirrored f g st st' x y := by
  refine ⟨result, ⟨reads, machine, ?_, ?_⟩, first, second⟩
  · rw [first.signals, h.live]
  · rw [second.signals, h.live']

theorem pure (x : α) : Mirrors f g (Pure.pure x) (Pure.pure x) :=
  fun _ _ h => ⟨rfl, h, .refl _, .refl _⟩

theorem bind {r r' : Run α} {k k' : α → Run β} (hr : Mirrors f g r r')
    (hk : ∀ x, Mirrors f g (k x) (k' x)) : Mirrors f g (r >>= k) (r' >>= k') := by
  intro st st' h
  have one := hr st st' h
  have two := hk (r.run st).1 _ _ one.state
  show Run.Mirrored f g st st' ((k (r.run st).1).run (r.run st).2)
    ((k' (r'.run st').1).run (r'.run st').2)
  rw [← one.result]
  exact ⟨two.result, two.state, one.first.trans two.first, one.second.trans two.second⟩

/-- What follows a look at the scene sees scenes that resemble each other. -/
theorem scene_bind_at (like : f.Resembles g) {st st' : RunState} (same : st.Resembles f g st')
    {k k' : Scene → Run α}
    (h : Scene.Resembles ⟨⟨f, st.scope⟩, st.machine.world⟩ ⟨⟨g, st'.scope⟩, st.machine.world⟩ →
      Run.Mirrored f g st st' ((k ⟨⟨f, st.scope⟩, st.machine.world⟩).run st)
        ((k' ⟨⟨g, st'.scope⟩, st.machine.world⟩).run st')) :
    Run.Mirrored f g st st' ((Run.scene f >>= k).run st) ((Run.scene g >>= k').run st') := by
  show Run.Mirrored f g st st' ((k ⟨⟨f, st.scope⟩, st.machine.world⟩).run st)
    ((k' ⟨⟨g, st'.scope⟩, st'.machine.world⟩).run st')
  rw [← same.machine.world]
  exact h ⟨same.reads, like, rfl⟩

theorem scene_bind (like : f.Resembles g) {k k' : Scene → Run α}
    (h : ∀ scope scope' world, Scene.Resembles ⟨⟨f, scope⟩, world⟩ ⟨⟨g, scope'⟩, world⟩ →
      Mirrors f g (k ⟨⟨f, scope⟩, world⟩) (k' ⟨⟨g, scope'⟩, world⟩)) :
    Mirrors f g (Run.scene f >>= k) (Run.scene g >>= k') :=
  fun st st' same => scene_bind_at like same fun scenes =>
    h st.scope st'.scope st.machine.world scenes st st' same

theorem set (name : String) (d : Datum) : Mirrors f g (Run.set name d) (Run.set name d) := by
  intro st st' h
  refine mirrored_of_undisturbed h rfl ?_ h.machine (.refl _) (.refl _)
  show (Context.set ⟨f, st.scope⟩ name d).get? = (Context.set ⟨g, st'.scope⟩ name d).get?
  rw [Context.get?_set, Context.get?_set, h.reads]

theorem clear (name : String) : Mirrors f g (Run.clear name) (Run.clear name) := by
  intro st st' h
  refine mirrored_of_undisturbed h rfl ?_ h.machine (.refl _) (.refl _)
  show (Context.clear ⟨f, st.scope⟩ name).get? = (Context.clear ⟨g, st'.scope⟩ name).get?
  rw [Context.get?_clear, Context.get?_clear, h.reads]

/-- The log is not looked at. -/
theorem record (b : Block) (o : Outcome) : Mirrors f g (Run.record f b o) (Run.record g b o) := by
  have unseen (f : Frame) (scope : Scope) :
      Context.get? ⟨f, scope.record f.logLimit b o⟩ = Context.get? ⟨f, scope⟩ := by
    unfold Scope.record
    split <;> rfl
  intro st st' h
  refine mirrored_of_undisturbed h rfl ?_ h.machine (.refl _) (.refl _)
  exact (unseen f st.scope).trans (h.reads.trans (unseen g st'.scope).symm)

theorem roll {k k' : Dice → α × Dice} (same : k = k') : Mirrors f g (Run.roll k) (Run.roll k') := by
  subst same
  intro st st' h
  have value : (k st.machine.dice).1 = (k st'.machine.dice).1 := by rw [h.machine.dice]
  have dice : (k st.machine.dice).2 = (k st'.machine.dice).2 := by rw [h.machine.dice]
  exact mirrored_of_undisturbed h value h.reads { h.machine with dice := dice }
    ⟨rfl, rfl, rfl, fun _ => rfl⟩ ⟨rfl, rfl, rfl, fun _ => rfl⟩

/-- A change of the world that leaves who is online. -/
theorem changeWorld {change : World → World} (usual : World.Usual change) :
    Mirrors f g (Run.changeMachine fun m => { m with world := change m.world })
      (Run.changeMachine fun m => { m with world := change m.world }) := by
  intro st st' h
  exact mirrored_of_undisturbed h rfl h.reads
    { h.machine with world := congrArg change h.machine.world }
    ⟨rfl, rfl, rfl, usual.isSome_actor?_eq _⟩ ⟨rfl, rfl, rfl, usual.isSome_actor?_eq _⟩

theorem contradict :
    Mirrors f g (Run.changeMachine Machine.contradict) (Run.changeMachine Machine.contradict) := by
  intro st st' h
  refine mirrored_of_undisturbed h rfl h.reads { h.machine with contradiction := ?_ }
    ⟨rfl, rfl, rfl, fun _ => rfl⟩ ⟨rfl, rfl, rfl, fun _ => rfl⟩
  show st.machine.contradiction.orElse _ = st'.machine.contradiction.orElse _
  rw [h.machine.contradiction, h.machine.effects]

/-- Neither run is cancelled. -/
theorem isRaised_bind {k k' : Bool → Run α} (h : Mirrors f g (k false) (k' false)) :
    Mirrors f g (Run.isRaised f.cancel >>= k) (Run.isRaised g.cancel >>= k') := by
  intro st st' same
  show Run.Mirrored f g st st' ((k (st.machine.signals.isRaised f.cancel)).run st)
    ((k' (st'.machine.signals.isRaised g.cancel)).run st')
  rw [same.live, same.live']
  exact h st st' same

/-- The subject makes no difference to what a state is. -/
theorem of_withTarget {target : Target} {r r' : Run α}
    (h : Mirrors { f with target := target } { g with target := target } r r') : Mirrors f g r r' := by
  intro st st' same
  have inner := h st st' ⟨same.reads, same.machine, same.live, same.live'⟩
  exact ⟨inner.result, ⟨inner.state.reads, inner.state.machine, inner.state.live,
    inner.state.live'⟩, inner.first, inner.second⟩

/-! ## Single blocks -/

theorem evaluate (like : f.Resembles g) (c : Condition) :
    Mirrors f g (Run.evaluate f c) (Run.evaluate g c) :=
  scene_bind like fun _ _ _ same => roll (congrFun same.evaluate c)

theorem variableStep (like : f.Resembles g) (v : VariableStep) :
    Mirrors f g (Run.variableStep f v) (Run.variableStep g v) := by
  refine scene_bind like fun _ _ _ same =>
    (roll (congrFun same.variableUpdate v)).bind fun update => ?_
  split
  · exact pure _
  split
  · exact (set _ _).bind fun _ => pure _
  · exact (clear _).bind fun _ => pure _
  · exact pure _

theorem mathStep (limits : Limits) (like : f.Resembles g) (m : MathStep) :
    Mirrors f g (Run.mathStep limits f m) (Run.mathStep limits g m) := by
  refine scene_bind like fun _ _ _ same =>
    (roll (congrFun (congrFun same.calculation m) limits.magnitude)).bind fun result => ?_
  split
  · split
    · exact contradict.bind fun _ => pure _
    · exact pure _
  · exact (set _ _).bind fun _ => pure _

theorem textStep (limits : Limits) (like : f.Resembles g) (t : TextStep) :
    Mirrors f g (Run.textStep limits f t) (Run.textStep limits g t) := by
  refine scene_bind like fun _ _ _ same => ?_
  rw [same.textResult]
  split
  · exact pure _
  · exact (set _ _).bind fun _ => pure _

theorem message (like : f.Resembles g) (shown : Option Value) :
    Mirrors f g (Run.message f shown) (Run.message g shown) := by
  refine scene_bind like fun _ _ _ same => ?_
  rw [same.messageTo]
  split
  · exact pure _
  · exact (changeWorld (World.usual_sendAll _ _)).bind fun _ => pure _

theorem teleport (like : f.Resembles g) (place : Option Value) :
    Mirrors f g (Run.teleport f place) (Run.teleport g place) := by
  intro st st' h
  refine scene_bind_at like h fun same => ?_
  rw [same.moveTo]
  dsimp only
  split
  · exact pure _ st st' h
  split
  · exact pure _ st st' h
  · next world moved =>
    have first := (World.passes_moveAll moved).isSome_actor?_eq
    have second := first
    rw [h.machine.world] at second
    exact mirrored_of_undisturbed h rfl h.reads { h.machine with world := rfl }
      ⟨rfl, rfl, rfl, first⟩ ⟨rfl, rfl, rfl, second⟩

theorem sideEffect (like : f.Resembles g) (r : Request) :
    Mirrors f g (Run.sideEffect f r) (Run.sideEffect g r) := by
  refine scene_bind like fun _ _ _ same => ?_
  rw [same.agrees.resolve, like.actor]
  dsimp only
  split
  · exact pure _
  intro st st' h
  unfold StateT.run
  dsimp only
  rw [h.machine.effects]
  split
  · exact mirrored_of_undisturbed h rfl h.reads { h.machine with effects := rfl }
      ⟨rfl, rfl, rfl, fun _ => rfl⟩ ⟨rfl, rfl, rfl, fun _ => rfl⟩
  · exact mirrored_of_undisturbed h rfl h.reads { h.machine with effects := rfl }
      ⟨rfl, rfl, rfl, fun _ => rfl⟩ ⟨rfl, rfl, rfl, fun _ => rfl⟩

theorem return_ (like : f.Resembles g) (v : Option Value) :
    Mirrors f g (Run.return_ f v) (Run.return_ g v) := by
  refine scene_bind like fun _ _ _ same => ?_
  rw [same.returned]
  exact pure _

end Run.Mirrors

/-! ## Loops -/

namespace Loop

open Run (Mirrors)

variable {f g : Frame} (like : f.Resembles g)

include like

theorem mirrors_ask (c : Cursor) : Mirrors f g (ask f c) (ask g c) := by
  unfold ask
  split
  · exact .evaluate like _
  · exact .pure _

theorem mirrors_close (c : Cursor) : Mirrors f g (close f c) (close g c) := by
  unfold close
  split
  · exact .pure _
  · exact .pure _
  · refine (mirrors_ask like c).bind fun answer => ?_
    split <;> exact .pure _
  · exact .pure _
  · exact .pure _

omit like in
theorem mirrors_publish (c : Cursor) : Mirrors f g (publish c) (publish c) := by
  have item : Mirrors f g (publishItem c) (publishItem c) := by
    unfold publishItem
    split
    · exact .set _ _
    · exact .pure _
  exact item.bind fun _ => (Mirrors.set _ _).bind fun _ => .set _ _

theorem mirrors_proceed (c : Cursor) : Mirrors f g (proceed f c) (proceed g c) := by
  unfold proceed
  split
  · refine (mirrors_ask like c.next).bind fun answer => ?_
    split <;> exact .pure _
  · exact .pure _

variable {body body' : Run Outcome} (inner : Mirrors f g body body')

include inner

theorem mirrors_enter (c : Cursor) : Mirrors f g (enter f body c) (enter g body' c) := by
  refine (mirrors_publish c).bind fun _ => inner.bind fun outcome => ?_
  split
  · exact mirrors_proceed like c
  · exact mirrors_proceed like c
  · exact .pure _
  · exact .pure _

theorem mirrors_step (c : Cursor) : Mirrors f g (step f body c) (step g body' c) := by
  unfold step
  split
  · refine (mirrors_ask like c).bind fun answer => ?_
    split
    · exact mirrors_enter like inner c
    · exact .pure _
    · exact .pure _
  · exact mirrors_enter like inner c

theorem mirrors_iterate (c : Cursor) : Mirrors f g (iterate f body c) (iterate g body' c) := by
  unfold iterate
  split
  · exact (mirrors_close like c).bind fun _ => .pure _
  · exact mirrors_step like inner c

theorem mirrors_cycle (n : Nat) (c : Cursor) :
    Mirrors f g (cycle f body n c) (cycle g body' n c) := by
  induction n generalizing c with
  | zero => exact Mirrors.isRaised_bind (mirrors_close like c)
  | succ n ih =>
      refine Mirrors.isRaised_bind ((mirrors_step like inner c).bind fun step => ?_)
      split
      · exact .pure _
      · exact ih _

/-- A loop that is not asynchronous. -/
theorem mirrors_repeat (limits : Limits) {r : Repeat} (atOnce : r.isAsync = false)
    (blocks : List Block) :
    Mirrors f g (repeat_ limits f r blocks body) (repeat_ limits g r blocks body') := by
  refine .scene_bind like fun _ _ _ same => ?_
  rw [same.cursor]
  split
  · exact .pure _
  · rw [atOnce]
    exact mirrors_cycle like inner _ _

end Loop

/-! ## Trees of blocks and calls -/

namespace Interpreter

open Run (Mirrors)

variable {limits : Limits}

/-- Calls mirror each other. -/
def CallsMirror (call : Caller) : Prop :=
  ∀ {f g : Frame}, f.Resembles g → f.Prompt → ∀ c, Mirrors f g (call f c) (call g c)

/-- One case for each instruction. -/
theorem mirrors_perform {call : Caller} (calls : CallsMirror call) {f g : Frame}
    (like : f.Resembles g) (known : f.Prompt) (previous : Option Bool) (children : List Block)
    {inner : Frame → Run Outcome}
    (inside : ∀ {f g : Frame}, f.Resembles g → f.Prompt → Mirrors f g (inner f) (inner g))
    {i : Instruction} (prompt : i.isPrompt = true) :
    Mirrors f g (perform limits call f previous children inner i)
      (perform limits call g previous children inner i) := by
  cases i with
  | event _ => exact .pure _
  | function _ => exact .pure _
  | if_ condition =>
      refine (Mirrors.evaluate like condition).bind fun answer => ?_
      split
      · exact (inside like known).bind fun _ => .pure _
      · exact .pure _
      · exact .pure _
  | else_ =>
      rcases previous with _ | _ | _
      · exact .pure _
      · exact (inside like known).bind fun _ => .pure _
      · exact .pure _
  | repeat_ r =>
      have atOnce : r.isAsync = false := by simpa [Instruction.isPrompt] using prompt
      exact (Loop.mirrors_repeat like (inside like known) limits atOnce children).bind fun _ => .pure _
  | target t =>
      refine .scene_bind like fun _ _ _ same =>
        (Mirrors.roll (congrFun same.findTarget t)).bind fun found => ?_
      split
      · exact .pure _
      · next target =>
        have below := inside (like.withTarget target) (f := { f with target := target }) known
        exact below.of_withTarget.bind fun _ => .pure _
  | callFunction c => exact (calls like known c).bind fun _ => .pure _
  | variable_ v => exact (Mirrors.variableStep like v).bind fun _ => .pure _
  | math m => exact (Mirrors.mathStep limits like m).bind fun _ => .pure _
  | text t => exact (Mirrors.textStep limits like t).bind fun _ => .pure _
  | message shown => exact (Mirrors.message like shown).bind fun _ => .pure _
  | teleport place => exact (Mirrors.teleport like place).bind fun _ => .pure _
  | sideEffect r => exact (Mirrors.sideEffect like r).bind fun _ => .pure _
  | delay ticks => cases prompt
  | stopLoop => cases prompt
  | break_ => exact .pure _
  | continue_ => exact .pure _
  | return_ value => exact (Mirrors.return_ like value).bind fun _ => .pure _

mutual

theorem mirrors_block {call : Caller} (calls : CallsMirror call) {f g : Frame}
    (like : f.Resembles g) (known : f.Prompt) (previous : Option Bool) :
    ∀ b : Block, Block.Prompt [b] →
      Mirrors f g (block limits call f previous b) (block limits call g previous b)
  | ⟨id, instruction, children⟩, prompt => by
      rw [block, block]
      obtain ⟨root, below⟩ := Block.Prompt.single_iff.mp prompt
      have inside {f g : Frame} (like : f.Resembles g) (known : f.Prompt) :
          Mirrors f g (blocks limits call f none children) (blocks limits call g none children) :=
        mirrors_blocks calls like known none children below
      exact (mirrors_perform calls like known previous children inside root).bind fun _ =>
        (Mirrors.record _ _).bind fun _ => .pure _

theorem mirrors_blocks {call : Caller} (calls : CallsMirror call) {f g : Frame}
    (like : f.Resembles g) (known : f.Prompt) (previous : Option Bool) :
    ∀ bs : List Block, Block.Prompt bs →
      Mirrors f g (blocks limits call f previous bs) (blocks limits call g previous bs)
  | [], _ => by
      rw [blocks, blocks]
      exact .pure _
  | b :: rest, prompt => by
      rw [blocks, blocks]
      obtain ⟨root, below, later⟩ := Block.Prompt.cons_iff.mp prompt
      refine (mirrors_block calls like known previous b
        (Block.Prompt.single_iff.mpr ⟨root, below⟩)).bind fun result => ?_
      dsimp only
      split
      · exact mirrors_blocks calls like known _ rest later
      · exact .pure _

end

theorem mirrors_deliver {f g : Frame} (like : f.Resembles g) (c : Call) (o : Outcome) :
    Mirrors f g (deliver f c o) (deliver g c o) := by
  unfold deliver
  split
  · exact .pure _
  · refine .scene_bind like fun _ _ _ same => ?_
    rw [same.agrees.variableName]
    split
    · exact .set _ _
    · exact .clear _

/-- A call finds the function that the frame has under its name, without the blanks around it, if it has
an argument for every parameter. -/
theorem callee_eq_ok_iff {s : Scene} {c : Call} {head : Function} {b : Block} {values : List Datum} :
    callee s c = .ok (head, b, values) ↔
      s.context.frame.functions.get? (Text.trim c.function) = some b ∧
        b.instruction = .function head ∧
        (Argument.split c.arguments).length = head.parameters.length ∧
        values = (Argument.split c.arguments).map s.argument := by
  unfold callee
  dsimp only
  constructor
  · intro found
    split at found
    · cases found
    · next entry =>
      split at found
      · next defined =>
        split at found
        · next arity =>
          cases found
          exact ⟨entry, defined, arity, rfl⟩
        · cases found
      · cases found
  · rintro ⟨entry, defined, arity, rfl⟩
    simp only [entry, defined, arity, if_true]

theorem get?_of_callee {s : Scene} {c : Call} {head : Function} {b : Block} {values : List Datum}
    (found : callee s c = .ok (head, b, values)) :
    s.context.frame.functions.get? (Text.trim c.function) = some b :=
  (callee_eq_ok_iff.mp found).1

/-- The variables of a function's body are those of the caller and the parameters. -/
theorem get?_bindParameters {c c' : Context} (same : c.get? = c'.get?) (parameters : List String)
    (values : List Datum) :
    (bindParameters c parameters values).get? = (bindParameters c' parameters values).get? := by
  have each (l : List (String × Datum)) {c c' : Context} (same : c.get? = c'.get?) :
      (l.foldl (fun c p => c.set p.1 p.2) c).get? = (l.foldl (fun c p => c.set p.1 p.2) c').get? := by
    induction l generalizing c c' with
    | nil => exact same
    | cons p l ih =>
        refine ih ?_
        rw [Context.get?_set, Context.get?_set, same]
  have forCall (c : Context) : c.forCall.get? = c.get? := rfl
  exact each _ ((forCall c).trans (same.trans (forCall c').symm))

/-- Going back from a call leads to what the two callers have in common. -/
theorem mirrored_leave {f g inner inner' : Frame} (like : f.Resembles g)
    (cancel : inner.cancel = f.cancel) (cancel' : inner'.cancel = g.cancel) {scope scope' : Scope}
    (callers : Context.get? ⟨f, scope⟩ = Context.get? ⟨g, scope'⟩) (c : Call) {o o' : Outcome}
    (same : o = o') {st st' : RunState} (h : st.Resembles inner inner' st') :
    Run.Mirrored f g st st' ((leave f c ⟨f, scope⟩ inner o).run st)
      ((leave g c ⟨g, scope'⟩ inner' o').run st') := by
  subst same
  have back {sc sc' : Scope} (reads : Context.get? ⟨f, sc⟩ = Context.get? ⟨g, sc'⟩) :
      RunState.Resembles f g ⟨sc, st.machine⟩ ⟨sc', st'.machine⟩ :=
    ⟨reads, h.machine, cancel ▸ h.live, cancel' ▸ h.live'⟩
  have taken : Context.get? ⟨f, (Context.mergeBack ⟨f, scope⟩ ⟨inner, st.scope⟩).scope⟩ =
      Context.get? ⟨g, (Context.mergeBack ⟨g, scope'⟩ ⟨inner', st'.scope⟩).scope⟩ := by
    have first := Context.get?_mergeBack ⟨f, scope⟩ ⟨inner, st.scope⟩
    have second := Context.get?_mergeBack ⟨g, scope'⟩ ⟨inner', st'.scope⟩
    rw [callers, h.reads] at first
    exact first.trans second.symm
  have ended := ((mirrors_deliver like c o).bind fun _ => Mirrors.pure Outcome.success) _ _ (back taken)
  have delivered : Run.Mirrored f g st st' _ _ := ⟨ended.result, ended.state, ended.first, ended.second⟩
  cases o with
  | error e => exact ⟨rfl, back callers, .refl _, .refl _⟩
  | success => exact delivered
  | break_ => exact delivered
  | continue_ => exact delivered
  | return_ _ => exact delivered

theorem mirrors_enter {run : Frame → List Block → Run Outcome}
    (inside : ∀ {f g : Frame}, f.Resembles g → f.Prompt → ∀ body, Block.Prompt body →
      Mirrors f g (run f body) (run g body))
    {f g : Frame} (like : f.Resembles g) (known : f.Prompt) (c : Call) :
    Mirrors f g (enter run f c) (enter run g c) := by
  refine Mirrors.scene_bind like fun scope scope' world same => ?_
  rw [same.callee]
  split
  · exact .pure _
  next head b values found =>
  have prompt : Block.Prompt b.children := by
    have entry := get?_of_callee found
    rw [← same.frame.functions] at entry
    exact (Block.Prompt.single_iff.mp (known _ b entry)).2
  have reads := get?_bindParameters same.reads head.parameters values
  have frame := bindParameters_frame ⟨f, scope⟩ head.parameters values
  have frame' := bindParameters_frame ⟨g, scope'⟩ head.parameters values
  -- the body runs one call deeper, in the scope that the parameters are bound in
  intro st st' h
  generalize bindParameters ⟨f, scope⟩ head.parameters values = inner at *
  generalize bindParameters ⟨g, scope'⟩ head.parameters values = inner' at *
  obtain ⟨_, bound⟩ := inner
  obtain ⟨_, bound'⟩ := inner'
  subst frame frame'
  have entered : RunState.Resembles (Context.forCall ⟨f, scope⟩).frame (Context.forCall ⟨g, scope'⟩).frame
      ⟨bound, st.machine⟩ ⟨bound', st'.machine⟩ := ⟨reads, h.machine, h.live, h.live'⟩
  have deeper : (Context.forCall ⟨f, scope⟩).frame.Resembles (Context.forCall ⟨g, scope'⟩).frame :=
    { like with callDepth := congrArg (· + 1) like.callDepth }
  have ran := inside deeper known b.children prompt _ _ entered
  have cancel : (Context.forCall ⟨f, scope⟩).frame.cancel = f.cancel := rfl
  have cancel' : (Context.forCall ⟨g, scope'⟩).frame.cancel = g.cancel := rfl
  have left := mirrored_leave like cancel cancel' same.reads c ran.result ran.state
  exact ⟨left.result, left.state, ran.first.trans left.first, ran.second.trans left.second⟩

/-- Calls mirror each other, however deeply they are nested. -/
theorem callsMirror_call (n : Nat) : CallsMirror (call limits n) := by
  induction n with
  | zero => exact fun _ _ _ => .pure _
  | succ n ih =>
      exact fun like known c => mirrors_enter
        (fun like known body prompt => mirrors_blocks ih like known none body prompt) like known c

/-- **The same prompt blocks do the same in frames that resemble each other.** -/
theorem mirrors_run (limits : Limits) {f g : Frame} (like : f.Resembles g) (known : f.Prompt)
    {body : List Block} (prompt : Block.Prompt body) :
    Mirrors f g (run limits f body) (run limits g body) := by
  unfold run callsLeft
  rw [like.callDepth]
  exact mirrors_blocks (callsMirror_call _) like known none body prompt

end Interpreter

end Blockwork
