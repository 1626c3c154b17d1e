import Blockwork.Proofs.Machine.Idle

/-!
# What a run does, one thing after another

The interpreter is a function, and what happens on the way is gone when it returns.  `Does` is the same
interpreter as a relation: one rule for each thing that can happen, with the list of deeds that come of
it.  The relation knows no bound.  A loop goes on as long as its cursor lets it, and a call goes into
whatever body the function table has under its name; the only limits are the tests that the program
makes itself.  A derivation is a run that ends.

## What is load-bearing

* `Interpreter.choose`: what an instruction decides and changes before any other block runs for it.
  Together with `perform_eq` it leaves six kinds of instruction instead of eighteen.
* `Does.sound`: what a derivation arrives at is what the interpreter returns.
* `ends`: there is a derivation for everything.  The recursion is that of the interpreter: on the
  block tree, on the iterations below the limit of a loop, and on the calls that may still be nested.
* `Does.unique`: there is only one, deeds included.
-/

namespace Blockwork

/-- Something that a run does. -/
inductive Deed where
  /-- A block has run in a frame. -/
  | ran (f : Frame) (b : Block) (o : Outcome)
  /-- The body of a function is entered in a frame. -/
  | called (f : Frame)
  /-- A loop has ended; its body was entered at these counts of iterations. -/
  | looped (r : Repeat) (counts : List Nat)
  /-- Blocks are put off for a number of ticks. -/
  | postponed (wait : Float) (d : Delayed)
  /-- A loop is handed over to the agenda. -/
  | spread (r : Repeat) (t : LoopTask)

/-- What an instruction comes to before any other block runs for it. -/
inductive Choice where
  /-- It is done, with an outcome and whether its condition held. -/
  | settled (o : Outcome) (held : Option Bool)
  /-- Its children have been put off. -/
  | postponed (wait : Float) (d : Delayed)
  /-- Its children are the body of a loop over ticks. -/
  | spread (r : Repeat) (t : LoopTask)
  /-- Its children run in a frame. -/
  | within (f : Frame) (held : Option Bool)
  /-- Its children are the body of a loop at once. -/
  | loop (r : Repeat) (c : Cursor)
  /-- A function is called. -/
  | call (c : Call)

namespace Interpreter

/-- A body that is put off, with the tick it waits for. -/
def delayedBy (f : Frame) (wait : Float) (body : List Block) (st : RunState) : Delayed :=
  { due := min (st.machine.agenda.tick + wholeTicks wait) Agenda.lastTick
    body
    context := ⟨f, st.scope⟩ }

/-- A loop that is handed over. -/
def spreadTask (f : Frame) (r : Repeat) (body : List Block) (c : Cursor) (handle : LoopHandle)
    (st : RunState) : LoopTask :=
  { handle
    body
    cursor := c
    context := ⟨{ f with cancel := handle.signal }, st.scope⟩
    interval := max r.interval.toNat 1
    nextTick := st.machine.agenda.tick + 1 }

/-- Puts a body off. -/
def putOff (f : Frame) (wait : Float) (body : List Block) : Run Choice := fun st =>
  (.postponed wait (delayedBy f wait body st), ((postpone f wait body).run st).2)

/-- Hands a loop over, if the actor's slot is free. -/
def handOver (f : Frame) (r : Repeat) (body : List Block) (c : Cursor) : Run Choice := fun st =>
  match st.machine.takeSlot f.actor with
  | .error e => (.settled (.error e) none, st)
  | .ok (handle, _) =>
    (.spread r (spreadTask f r body c handle st), ((Loop.spread f r.interval body c).run st).2)

/-- What an instruction decides and changes by itself. -/
def choose (limits : Limits) (f : Frame) (previous : Option Bool) (children : List Block) :
    Instruction → Run Choice
  | .event _ | .function _ => pure (.settled .success none)
  | .if_ condition => do
    match ← Run.evaluate f condition with
    | .ok true => pure (.within f (some true))
    | .ok false => pure (.settled .success (some false))
    | .error e => pure (.settled (.error e) none)
  | .else_ =>
    match previous with
    | some false => pure (.within f none)
    | _ => pure (.settled .success none)
  | .repeat_ r => do
    let s ← Run.scene f
    match Cursor.start s limits r with
    | .error e => pure (.settled (.error e) none)
    | .ok c => if r.isAsync then handOver f r children c else pure (.loop r c)
  | .target t => do
    let s ← Run.scene f
    match ← Run.roll (s.findTarget t) with
    | .error e => pure (.settled (.error e) none)
    | .ok target => pure (.within { f with target := target } none)
  | .callFunction c => pure (.call c)
  | .variable_ v => do pure (.settled (← Run.variableStep f v) none)
  | .math m => do pure (.settled (← Run.mathStep limits f m) none)
  | .text t => do pure (.settled (← Run.textStep limits f t) none)
  | .message shown => do pure (.settled (← Run.message f shown) none)
  | .teleport place => do pure (.settled (← Run.teleport f place) none)
  | .sideEffect r => do pure (.settled (← Run.sideEffect f r) none)
  | .delay ticks => do
    let s ← Run.scene f
    match s.number ticks "ticks" with
    | .error e => pure (.settled (.error e) none)
    | .ok wait => if 0 < wholeTicks wait then putOff f wait children else pure (.within f none)
  | .stopLoop => do pure (.settled (← Run.stopLoop f) none)
  | .break_ => pure (.settled .break_ none)
  | .continue_ => pure (.settled .continue_ none)
  | .return_ value => do pure (.settled (← Run.return_ f value) none)

/-- Does what has been chosen. -/
def obey (call : Caller) (f : Frame) (inner : Frame → Run Outcome) :
    Choice → Run (Outcome × Option Bool)
  | .settled o held => pure (o, held)
  | .postponed _ _ | .spread _ _ => pure (.success, none)
  | .within g held => do pure (← inner g, held)
  | .loop _ c => do pure (← Loop.cycle f (inner f) c.room c, none)
  | .call c => do pure (← call f c, none)

theorem putOff_obey (call : Caller) (f : Frame) (inner : Frame → Run Outcome) (wait : Float)
    (body : List Block) :
    putOff f wait body >>= obey call f inner = (do pure (← postpone f wait body, none)) := rfl

theorem handOver_obey (call : Caller) (f : Frame) (inner : Frame → Run Outcome) (r : Repeat)
    (body : List Block) (c : Cursor) :
    handOver f r body c >>= obey call f inner =
      (do pure (← Loop.spread f r.interval body c, none)) := by
  funext st
  show (obey call f inner (handOver f r body c st).1).run (handOver f r body c st).2 =
    (((Loop.spread f r.interval body c st).1, none), (Loop.spread f r.interval body c st).2)
  cases taken : st.machine.takeSlot f.actor with
  | error e =>
      simp only [handOver, Loop.spread, taken]
      rfl
  | ok result =>
      simp only [handOver, Loop.spread, taken, StateT.run]
      rfl

/-- An instruction chooses and then does what it has chosen. -/
theorem perform_eq (limits : Limits) (call : Caller) (f : Frame) (previous : Option Bool)
    (children : List Block) (inner : Frame → Run Outcome) (i : Instruction) :
    perform limits call f previous children inner i =
      choose limits f previous children i >>= obey call f inner := by
  cases i with
  | if_ condition =>
      simp only [perform, choose, bind_assoc]
      refine congrArg (Run.evaluate f condition >>= ·) (funext fun answer => ?_)
      rcases answer with e | _ | _ <;> rfl
  | else_ => rcases previous with _ | _ | _ <;> rfl
  | repeat_ r =>
      simp only [perform, choose, Loop.repeat_, bind_assoc]
      refine congrArg (Run.scene f >>= ·) (funext fun s => ?_)
      cases Cursor.start s limits r with
      | error e => rfl
      | ok c =>
          dsimp only
          split
          · exact (handOver_obey call f inner r children c).symm
          · rfl
  | target t =>
      simp only [perform, choose, bind_assoc]
      refine congrArg (Run.scene f >>= ·) (funext fun s => ?_)
      refine congrArg (Run.roll (s.findTarget t) >>= ·) (funext fun found => ?_)
      cases found <;> rfl
  | delay ticks =>
      simp only [perform, choose, delay, bind_assoc]
      refine congrArg (Run.scene f >>= ·) (funext fun s => ?_)
      cases s.number ticks "ticks" with
      | error e => rfl
      | ok wait =>
          dsimp only
          split
          · exact (putOff_obey call f inner wait children).symm
          · rfl
  | _ => simp only [perform, choose, bind_assoc, pure_bind, obey]

/-- What is known of a choice, of the state in which it was made and of the one it leaves. -/
def Made (limits : Limits) (f : Frame) (children : List Block) (st st' : RunState) : Choice → Prop
  | .settled _ _ => Machine.Idle st.machine st'.machine
  | .postponed wait d =>
    0 < wholeTicks wait ∧ d = delayedBy f wait children st ∧
      st'.machine = { st.machine with agenda := st.machine.agenda.addDelay d }
  | .spread r t => ∃ s c handle m, Cursor.start s limits r = .ok c ∧
      st.machine.takeSlot f.actor = .ok (handle, m) ∧ t = spreadTask f r children c handle st ∧
      st'.machine = { m with agenda := m.agenda.addLoop t }
  | .within g _ =>
    Machine.Idle st.machine st'.machine ∧ g.callDepth = f.callDepth
  | .loop r c => Machine.Idle st.machine st'.machine ∧ ∃ s, Cursor.start s limits r = .ok c
  | .call _ => st' = st

/-- Whatever is chosen, this is known of it. -/
def Makes (limits : Limits) (f : Frame) (children : List Block) (r : Run Choice) : Prop :=
  ∀ st, Made limits f children st (r.run st).2 (r.run st).1

namespace Makes

variable {α : Type} {limits : Limits} {f : Frame} {children : List Block}

theorem settled (o : Outcome) (held : Option Bool) :
    Makes limits f children (pure (.settled o held)) :=
  fun st => .refl st.machine

theorem within {g : Frame} (held : Option Bool) (depth : g.callDepth = f.callDepth) :
    Makes limits f children (pure (.within g held)) :=
  fun st => ⟨.refl st.machine, depth⟩

/-- A look at the scene changes nothing. -/
theorem scene {k : Scene → Run Choice} (h : ∀ s, Makes limits f children (k s)) :
    Makes limits f children (Run.scene f >>= k) :=
  fun st => h _ st

/-- The outcome, or that the children run, is settled after something that leaves the agenda. -/
theorem after {r : Run α} {k : α → Run Choice} (idles : Run.Idles r)
    (h : ∀ x, (∃ o held, k x = pure (.settled o held)) ∨
      ∃ g held, k x = pure (.within g held) ∧ g.callDepth = f.callDepth) :
    Makes limits f children (r >>= k) := by
  intro st
  have idle := idles st
  show Made limits f children st ((k (r.run st).1).run (r.run st).2).2
    ((k (r.run st).1).run (r.run st).2).1
  rcases h (r.run st).1 with ⟨o, held, chosen⟩ | ⟨g, held, chosen, depth⟩
  · rw [chosen]
    exact idle
  · rw [chosen]
    exact ⟨idle, depth⟩

/-- A block that does not contain others. -/
theorem alone {r : Run Outcome} (idles : Run.Idles r) :
    Makes limits f children (do pure (.settled (← r) none)) :=
  after idles fun _ => .inl ⟨_, _, rfl⟩

theorem putOff {wait : Float} (long : 0 < wholeTicks wait) :
    Makes limits f children (Interpreter.putOff f wait children) :=
  fun _ => ⟨long, rfl, rfl⟩

theorem handOver {r : Repeat} {c : Cursor} {s : Scene}
    (started : Cursor.start s limits r = .ok c) :
    Makes limits f children (Interpreter.handOver f r children c) := by
  intro st
  unfold StateT.run
  cases taken : st.machine.takeSlot f.actor with
  | error e =>
      simp only [Interpreter.handOver, taken]
      exact .refl _
  | ok result =>
      obtain ⟨handle, m⟩ := result
      simp only [Interpreter.handOver, taken, StateT.run, Loop.spread]
      obtain ⟨-, -, rfl⟩ := Machine.takeSlot_eq_ok taken
      exact ⟨s, c, handle, _, started, taken, rfl, rfl⟩

end Makes

open Run.Idles (closed) in
/-- One case for each instruction. -/
theorem makes_choose (limits : Limits) (f : Frame) (previous : Option Bool) (children : List Block)
    (i : Instruction) : Makes limits f children (choose limits f previous children i) := by
  cases i with
  | event _ => exact .settled _ _
  | function _ => exact .settled _ _
  | if_ condition =>
      rw [choose]
      refine .after (closed.evaluate f condition) fun answer => ?_
      rcases answer with e | _ | _
      · exact .inl ⟨_, _, rfl⟩
      · exact .inl ⟨_, _, rfl⟩
      · exact .inr ⟨_, _, rfl, rfl⟩
  | else_ =>
      rcases previous with _ | _ | _
      · exact .settled _ _
      · exact .within _ rfl
      · exact .settled _ _
  | repeat_ r =>
      rw [choose]
      refine .scene fun s => ?_
      cases started : Cursor.start s limits r with
      | error e => exact .settled _ _
      | ok c =>
          dsimp only
          split
          · exact .handOver started
          · exact fun st => ⟨.refl st.machine, s, started⟩
  | target t =>
      rw [choose]
      refine .scene fun s => .after (closed.roll _) fun found => ?_
      cases found with
      | error e => exact .inl ⟨_, _, rfl⟩
      | ok target => exact .inr ⟨_, _, rfl, rfl⟩
  | callFunction c => exact fun st => rfl
  | variable_ v => exact .alone (closed.variableStep f v)
  | math m => exact .alone (closed.mathStep (fun _ => .contradict) f m)
  | text t => exact .alone (closed.textStep limits f t)
  | message shown => exact .alone (closed.message f shown)
  | teleport place => exact .alone (closed.teleport f place)
  | sideEffect r => exact .alone (closed.sideEffect f r)
  | delay ticks =>
      rw [choose]
      refine .scene fun s => ?_
      cases s.number ticks "ticks" with
      | error e => exact .settled _ _
      | ok wait =>
          dsimp only
          split
          · next long => exact .putOff long
          · exact .within _ rfl
  | stopLoop => exact .alone (.stopLoop f)
  | break_ => exact .settled _ _
  | continue_ => exact .settled _ _
  | return_ value => exact .alone (closed.return_ f value)

/-- The same, of a choice that is known. -/
theorem made_of_choose {limits : Limits} {f : Frame} {previous : Option Bool} {children : List Block}
    {i : Instruction} {st st' : RunState} {x : Choice}
    (chose : (choose limits f previous children i).run st = (x, st')) :
    Made limits f children st st' x := by
  have made := makes_choose limits f previous children i st
  rwa [chose] at made

end Interpreter

/-- A property that what blocks do to anything but the log has, and that calculations, the stopping of
loops, putting off and handing over have too, holds of what an instruction decides and changes by itself. -/
theorem Run.Writing.choose {P : {α : Type} → Run α → Prop} (writing : Run.Writing P) (limits : Limits)
    {f : Frame} (previous : Option Bool) {children : List Block} {i : Instruction}
    (mathStep : ∀ m, i = .math m → P (Run.mathStep limits f m))
    (stopLoop : P (Run.stopLoop f)) (putOff : ∀ wait, P (Interpreter.putOff f wait children))
    (handOver : ∀ r, i = .repeat_ r → ∀ c, P (Interpreter.handOver f r children c)) :
    P (Interpreter.choose limits f previous children i) := by
  have alone {r : Run Outcome} (h : P r) : P (do pure (.settled (← r) none) : Run Choice) :=
    writing.bind h fun _ => writing.pure _
  cases i with
  | event _ | function _ | break_ | continue_ | callFunction _ => exact writing.pure _
  | if_ condition =>
      refine writing.bind (writing.evaluate f condition) fun answer => ?_
      split <;> exact writing.pure _
  | else_ => rcases previous with _ | _ | _ <;> exact writing.pure _
  | repeat_ r =>
      refine writing.bind (writing.scene f) fun s => ?_
      split
      · exact writing.pure _
      · split
        · exact handOver r rfl _
        · exact writing.pure _
  | target t =>
      refine writing.bind (writing.scene f) fun s => writing.bind (writing.roll _) fun found => ?_
      split <;> exact writing.pure _
  | delay ticks =>
      refine writing.bind (writing.scene f) fun s => ?_
      split
      · exact writing.pure _
      · split
        · exact putOff _
        · exact writing.pure _
  | variable_ v => exact alone (writing.variableStep f v)
  | math m => exact alone (mathStep m rfl)
  | text t => exact alone (writing.textStep limits f t)
  | message shown => exact alone (writing.message f shown)
  | teleport place => exact alone (writing.teleport f place)
  | sideEffect r => exact alone (writing.sideEffect f r)
  | stopLoop => exact alone stopLoop
  | return_ value => exact alone (writing.return_ f value)

/-! ## The relation -/

/-- Something to be done. -/
inductive Doing where
  /-- An instruction, given whether the condition just before it held, with its children. -/
  | instruction (previous : Option Bool) (children : List Block) (i : Instruction)
  /-- A block, given whether the condition just before it held. -/
  | block (previous : Option Bool) (b : Block)
  /-- Siblings, given whether the condition just before them held. -/
  | siblings (previous : Option Bool) (bs : List Block)
  /-- A loop at once, whose body has been entered at the given counts. -/
  | rounds (r : Repeat) (body : List Block) (c : Cursor) (counts : List Nat)
  /-- A call. -/
  | call (c : Call)

open Interpreter

/-- From a state, something is done in a frame: the deeds, the outcome with whether a condition held,
and the state afterwards. -/
inductive Does (limits : Limits) :
    Frame → Doing → RunState → List Deed → Outcome × Option Bool → RunState → Prop where
  /-- An instruction settles the matter by itself. -/
  | settled {f : Frame} {previous : Option Bool} {children : List Block} {i : Instruction}
      {st st' : RunState} {o : Outcome} {held : Option Bool}
      (chose : (choose limits f previous children i).run st = (.settled o held, st')) :
      Does limits f (.instruction previous children i) st [] (o, held) st'
  /-- Children are put off. -/
  | postponed {f : Frame} {previous : Option Bool} {children : List Block} {i : Instruction}
      {st st' : RunState} {wait : Float} {d : Delayed}
      (chose : (choose limits f previous children i).run st = (.postponed wait d, st')) :
      Does limits f (.instruction previous children i) st [.postponed wait d] (.success, none) st'
  /-- A loop is handed over. -/
  | spread {f : Frame} {previous : Option Bool} {children : List Block} {i : Instruction}
      {st st' : RunState} {r : Repeat} {t : LoopTask}
      (chose : (choose limits f previous children i).run st = (.spread r t, st')) :
      Does limits f (.instruction previous children i) st [.spread r t] (.success, none) st'
  /-- Children run. -/
  | within {f g : Frame} {previous held : Option Bool} {children : List Block} {i : Instruction}
      {st st₁ st' : RunState} {deeds : List Deed} {o : Outcome}
      (chose : (choose limits f previous children i).run st = (.within g held, st₁))
      (inside : Does limits g (.siblings none children) st₁ deeds (o, none) st') :
      Does limits f (.instruction previous children i) st deeds (o, held) st'
  /-- A loop begins. -/
  | loop {f : Frame} {previous : Option Bool} {children : List Block} {i : Instruction}
      {st st₁ st' : RunState} {deeds : List Deed} {r : Repeat} {c : Cursor} {o : Outcome}
      (chose : (choose limits f previous children i).run st = (.loop r c, st₁))
      (rounds : Does limits f (.rounds r children c []) st₁ deeds (o, none) st') :
      Does limits f (.instruction previous children i) st deeds (o, none) st'
  /-- A function is called. -/
  | call {f : Frame} {previous : Option Bool} {children : List Block} {i : Instruction}
      {st st₁ st' : RunState} {deeds : List Deed} {c : Call} {o : Outcome}
      (chose : (choose limits f previous children i).run st = (.call c, st₁))
      (calls : Does limits f (.call c) st₁ deeds (o, none) st') :
      Does limits f (.instruction previous children i) st deeds (o, none) st'
  /-- A block does what its instruction says and is noted in the log. -/
  | block {f : Frame} {previous : Option Bool} {id : BlockId} {i : Instruction}
      {children : List Block} {st st₁ : RunState} {deeds : List Deed} {r : Outcome × Option Bool}
      (inside : Does limits f (.instruction previous children i) st deeds r st₁) :
      Does limits f (.block previous ⟨id, i, children⟩) st (deeds ++ [.ran f ⟨id, i, children⟩ r.1]) r
        ((Run.record f ⟨id, i, children⟩ r.1).run st₁).2
  /-- There are no siblings. -/
  | nil {f : Frame} {previous : Option Bool} {st : RunState} :
      Does limits f (.siblings previous []) st [] (.success, none) st
  /-- A block does not succeed, and its siblings do not run. -/
  | stop {f : Frame} {previous held : Option Bool} {b : Block} {rest : List Block}
      {st st' : RunState} {deeds : List Deed} {o : Outcome}
      (first : Does limits f (.block previous b) st deeds (o, held) st')
      (failed : o.isSuccess = false) :
      Does limits f (.siblings previous (b :: rest)) st deeds (o, none) st'
  /-- A block succeeds, and its siblings run. -/
  | go {f : Frame} {previous held : Option Bool} {b : Block} {rest : List Block}
      {st st₁ st' : RunState} {deeds deeds' : List Deed} {o o' : Outcome}
      (first : Does limits f (.block previous b) st deeds (o, held) st₁)
      (succeeded : o.isSuccess = true)
      (others : Does limits f (.siblings held rest) st₁ deeds' (o', none) st') :
      Does limits f (.siblings previous (b :: rest)) st (deeds ++ deeds') (o', none) st'
  /-- A loop is cancelled. -/
  | cancelled {f : Frame} {r : Repeat} {body : List Block} {c : Cursor} {counts : List Nat}
      {st : RunState} (raised : st.machine.signals.isRaised f.cancel = true) :
      Does limits f (.rounds r body c counts) st [.looped r counts] (.success, none) st
  /-- A loop ends before its body. -/
  | ended {f : Frame} {r : Repeat} {body : List Block} {c : Cursor} {counts : List Nat}
      {st st' : RunState} {o : Outcome} (quiet : st.machine.signals.isRaised f.cancel = false)
      (opened : (Loop.opens f c).run st = (some o, st')) :
      Does limits f (.rounds r body c counts) st [.looped r counts] (o, none) st'
  /-- A loop ends after its body. -/
  | last {f : Frame} {r : Repeat} {body : List Block} {c : Cursor} {counts : List Nat}
      {st st₁ st₂ st' : RunState} {deeds : List Deed} {o o' : Outcome}
      (quiet : st.machine.signals.isRaised f.cancel = false)
      (opened : (Loop.opens f c).run st = (none, st₁))
      (inside : Does limits f (.siblings none body) st₁ deeds (o, none) st₂)
      (closed : (Loop.closes f c o).run st₂ = (.done o', st')) :
      Does limits f (.rounds r body c counts) st (deeds ++ [.looped r (counts ++ [c.iteration])])
        (o', none) st'
  /-- A loop goes on after its body. -/
  | next {f : Frame} {r : Repeat} {body : List Block} {c c' : Cursor} {counts : List Nat}
      {st st₁ st₂ st₃ st' : RunState} {deeds deeds' : List Deed} {o o' : Outcome}
      (quiet : st.machine.signals.isRaised f.cancel = false)
      (opened : (Loop.opens f c).run st = (none, st₁))
      (inside : Does limits f (.siblings none body) st₁ deeds (o, none) st₂)
      (closed : (Loop.closes f c o).run st₂ = (.next c', st₃))
      (others : Does limits f (.rounds r body c' (counts ++ [c.iteration])) st₃ deeds' (o', none)
        st') :
      Does limits f (.rounds r body c counts) st (deeds ++ deeds') (o', none) st'
  /-- Too many calls are in progress. -/
  | tooDeep {f : Frame} {c : Call} {st : RunState} (full : limits.maxCallDepth ≤ f.callDepth) :
      Does limits f (.call c) st []
        (.error (.excess (.callDepth limits.maxCallDepth (Text.trim c.function))), none) st
  /-- There is no such function, or it takes other arguments. -/
  | refused {f : Frame} {c : Call} {st : RunState} {e : Failure}
      (room : f.callDepth < limits.maxCallDepth)
      (found : callee ⟨⟨f, st.scope⟩, st.machine.world⟩ c = .error e) :
      Does limits f (.call c) st [] (.error e, none) st
  /-- The body of a function runs one call deeper. -/
  | entered {f : Frame} {c : Call} {st st₁ st' : RunState} {head : Function} {b : Block}
      {values : List Datum} {deeds : List Deed} {o o' : Outcome}
      (room : f.callDepth < limits.maxCallDepth)
      (found : callee ⟨⟨f, st.scope⟩, st.machine.world⟩ c = .ok (head, b, values))
      (inside : Does limits (bindParameters ⟨f, st.scope⟩ head.parameters values).frame
        (.siblings none b.children)
        ⟨(bindParameters ⟨f, st.scope⟩ head.parameters values).scope, st.machine⟩ deeds (o, none) st₁)
      (left : (leave f c ⟨f, st.scope⟩ (bindParameters ⟨f, st.scope⟩ head.parameters values).frame
        o).run st₁ = (o', st')) :
      Does limits f (.call c) st
        (.called (bindParameters ⟨f, st.scope⟩ head.parameters values).frame :: deeds) (o', none) st'

/-! ## The relation and the interpreter -/

/-- How the interpreter runs calls in a frame. -/
def Frame.caller (limits : Limits) (f : Frame) : Caller := call limits (callsLeft limits f)

/-- What the interpreter makes of something to be done. -/
def Doing.run (limits : Limits) (f : Frame) : Doing → Run (Outcome × Option Bool)
  | .instruction previous children i =>
    perform limits (f.caller limits) f previous children
      (fun g => Interpreter.blocks limits (f.caller limits) g none children) i
  | .block previous b => Interpreter.block limits (f.caller limits) f previous b
  | .siblings previous bs => do
    pure (← Interpreter.blocks limits (f.caller limits) f previous bs, none)
  | .rounds _ body c _ => do
    pure (← Loop.cycle f (Interpreter.blocks limits (f.caller limits) f none body) c.room c, none)
  | .call c => do pure (← f.caller limits f c, none)

theorem Frame.caller_eq {limits : Limits} {f g : Frame} (depth : g.callDepth = f.callDepth) :
    g.caller limits = f.caller limits := by
  unfold caller callsLeft
  rw [depth]

/-- Taking the outcome out of a run that yields nothing else. -/
theorem Run.outcome_eq {r : Run Outcome} {st st' : RunState} {o : Outcome} {held : Option Bool}
    (h : (do pure (← r, none) : Run (Outcome × Option Bool)).run st = ((o, held), st')) :
    r.run st = (o, st') := by
  have same : (((r.run st).1, none), (r.run st).2) = ((o, held), st') := h
  obtain ⟨outcome, after⟩ := Prod.mk.inj same
  exact Prod.ext (Prod.mk.inj outcome).1 after

namespace Loop

variable {f : Frame} {body : Run Outcome} {c : Cursor} {st st' : RunState}

theorem cycle_of_raised (n : Nat) (raised : st.machine.signals.isRaised f.cancel = true) :
    (cycle f body n c).run st = (.success, st) := by
  have asked : (Run.isRaised f.cancel).run st = (true, st) := Prod.ext raised rfl
  cases n with
  | zero => exact Run.bind_eq asked
  | succ n => exact Run.bind_eq asked

/-- One round of a loop that is not cancelled. -/
theorem cycle_run (quiet : st.machine.signals.isRaised f.cancel = false) :
    (cycle f body c.room c).run st =
      (opens f c >>= fun x => around f body c x >>= rest f body).run st := by
  rw [cycle_eq_iterate quiet, iterate_eq, bind_assoc]

theorem cycle_of_over {o : Outcome} (quiet : st.machine.signals.isRaised f.cancel = false)
    (opened : (opens f c).run st = (some o, st')) : (cycle f body c.room c).run st = (o, st') := by
  rw [cycle_run quiet, Run.bind_eq opened]
  rfl

/-- A round whose body is known. -/
theorem cycle_of_entered {st₁ st₂ : RunState} {o : Outcome} {step : Step}
    (quiet : st.machine.signals.isRaised f.cancel = false)
    (opened : (opens f c).run st = (none, st₁)) (inside : body.run st₁ = (o, st₂))
    (closed : (closes f c o).run st₂ = (step, st')) :
    (cycle f body c.room c).run st = (rest f body step).run st' := by
  rw [cycle_run quiet, Run.bind_eq opened, around, bind_assoc, Run.bind_eq inside,
    Run.bind_eq closed]

end Loop

namespace Interpreter

variable {run : Frame → List Block → Run Outcome} {f : Frame} {c : Call} {st : RunState}

theorem enter_of_error {e : Failure} (found : callee ⟨⟨f, st.scope⟩, st.machine.world⟩ c = .error e) :
    (enter run f c).run st = (.error e, st) := by
  have looked : (Run.scene f).run st = (⟨⟨f, st.scope⟩, st.machine.world⟩, st) := rfl
  rw [enter, Run.bind_eq looked, found]
  rfl

/-- A call whose body is known. -/
theorem enter_of_ok {head : Function} {b : Block} {values : List Datum} {st₁ : RunState} {o : Outcome}
    (found : callee ⟨⟨f, st.scope⟩, st.machine.world⟩ c = .ok (head, b, values))
    (inside : (run (bindParameters ⟨f, st.scope⟩ head.parameters values).frame b.children).run
      ⟨(bindParameters ⟨f, st.scope⟩ head.parameters values).scope, st.machine⟩ = (o, st₁)) :
    (enter run f c).run st =
      (leave f c ⟨f, st.scope⟩ (bindParameters ⟨f, st.scope⟩ head.parameters values).frame o).run
        st₁ := by
  have looked : (Run.scene f).run st = (⟨⟨f, st.scope⟩, st.machine.world⟩, st) := rfl
  have changed : (Run.changeScope fun _ =>
      (bindParameters ⟨f, st.scope⟩ head.parameters values).scope).run st =
      ((), ⟨(bindParameters ⟨f, st.scope⟩ head.parameters values).scope, st.machine⟩) := rfl
  rw [enter, Run.bind_eq looked, found]
  dsimp only
  rw [Run.bind_eq changed, Run.bind_eq inside]

end Interpreter

theorem Interpreter.callDepth_bindParameters (c : Context) (parameters : List String)
    (values : List Datum) :
    (bindParameters c parameters values).frame.callDepth = c.frame.callDepth + 1 := by
  rw [bindParameters_frame]
  rfl

/-- There is room for a call. -/
theorem Frame.caller_of_room {limits : Limits} {f g : Frame} (room : f.callDepth < limits.maxCallDepth)
    (deeper : g.callDepth = f.callDepth + 1) :
    f.caller limits = enter fun h body => Interpreter.blocks limits (g.caller limits) h none body := by
  have left : callsLeft limits f = callsLeft limits g + 1 := by
    unfold callsLeft
    omega
  rw [caller, left]
  rfl

/-- What a derivation arrives at is what the interpreter returns. -/
theorem Does.sound {limits : Limits} {f : Frame} {doing : Doing} {st st' : RunState}
    {deeds : List Deed} {r : Outcome × Option Bool} (h : Does limits f doing st deeds r st') :
    (doing.run limits f).run st = (r, st') := by
  induction h with
  | settled chose =>
      rw [Doing.run, perform_eq, Run.bind_eq chose]
      rfl
  | postponed chose =>
      rw [Doing.run, perform_eq, Run.bind_eq chose]
      rfl
  | spread chose =>
      rw [Doing.run, perform_eq, Run.bind_eq chose]
      rfl
  | within chose inside ih =>
      obtain ⟨-, depth⟩ := made_of_choose chose
      have inner := Run.outcome_eq ih
      rw [Frame.caller_eq depth] at inner
      rw [Doing.run, perform_eq, Run.bind_eq chose, obey, Run.bind_eq inner]
      rfl
  | loop chose rounds ih =>
      rw [Doing.run, perform_eq, Run.bind_eq chose]
      exact ih
  | call chose calls ih =>
      rw [Doing.run, perform_eq, Run.bind_eq chose]
      exact ih
  | block inside ih =>
      rw [Doing.run] at ih
      rw [Doing.run, Interpreter.block, Run.bind_eq ih]
      rfl
  | nil =>
      rw [Doing.run, Interpreter.blocks]
      rfl
  | stop first failed ih =>
      rw [Doing.run] at ih
      rw [Doing.run, Interpreter.blocks, bind_assoc, Run.bind_eq ih]
      simp only [failed]
      rfl
  | go first succeeded others ih ih' =>
      rw [Doing.run] at ih
      rw [Doing.run, Interpreter.blocks, bind_assoc, Run.bind_eq ih]
      simp only [succeeded]
      exact ih'
  | cancelled raised =>
      rw [Doing.run, Run.bind_eq (Loop.cycle_of_raised _ raised)]
      rfl
  | ended quiet opened =>
      rw [Doing.run, Run.bind_eq (Loop.cycle_of_over quiet opened)]
      rfl
  | last quiet opened inside closed ih =>
      have ended := Loop.cycle_of_entered quiet opened (Run.outcome_eq ih) closed
      rw [Doing.run, Run.bind_eq ended]
      rfl
  | next quiet opened inside closed others ih ih' =>
      have goesOn := Loop.cycle_of_entered quiet opened (Run.outcome_eq ih) closed
      have ended := Run.outcome_eq ih'
      rw [Doing.run, Run.bind_eq (goesOn.trans ended)]
      rfl
  | tooDeep full =>
      have none : callsLeft limits _ = 0 := Nat.sub_eq_zero_of_le full
      rw [Doing.run, Frame.caller, none]
      rfl
  | @refused f c st e room found =>
      have deeper : (Context.forCall ⟨f, st.scope⟩).frame.callDepth = f.callDepth + 1 := rfl
      rw [Doing.run, Frame.caller_of_room room deeper, Run.bind_eq (enter_of_error found)]
      rfl
  | @entered f c st st₁ st' head b values deeds o o' room found inside left ih =>
      have deeper := callDepth_bindParameters ⟨f, st.scope⟩ head.parameters values
      have body := Run.outcome_eq ih
      rw [Doing.run, Frame.caller_of_room room deeper, Run.bind_eq ((enter_of_ok found body).trans left)]
      rfl

/-! ## Everything ends -/

/-- From every state, something can be done. -/
def Ends (limits : Limits) (f : Frame) (doing : Doing) : Prop :=
  ∀ st, ∃ deeds o held st', Does limits f doing st deeds (o, held) st'

section Ends

variable {limits : Limits} {f : Frame} {st st' : RunState} {deeds : List Deed} {o : Outcome}
  {held : Option Bool}

theorem Does.held_siblings {previous : Option Bool} {bs : List Block}
    (h : Does limits f (.siblings previous bs) st deeds (o, held) st') : held = none := by
  cases h <;> rfl

theorem Does.held_rounds {r : Repeat} {body : List Block} {c : Cursor} {counts : List Nat}
    (h : Does limits f (.rounds r body c counts) st deeds (o, held) st') : held = none := by
  cases h <;> rfl

theorem Does.held_call {c : Call} (h : Does limits f (.call c) st deeds (o, held) st') :
    held = none := by
  cases h <;> rfl

/-- A loop ends if its body does: each round leaves fewer iterations below the limit. -/
theorem ends_rounds {r : Repeat} {body : List Block} (inside : Ends limits f (.siblings none body))
    (n : Nat) : ∀ {c : Cursor} (counts : List Nat), c.room = n →
      Ends limits f (.rounds r body c counts) := by
  induction n using Nat.strongRecOn with
  | _ n ih =>
      intro c counts room st
      cases raised : st.machine.signals.isRaised f.cancel with
      | true => exact ⟨_, _, _, _, .cancelled raised⟩
      | false =>
          rcases opened : (Loop.opens f c).run st with ⟨_ | o, st₁⟩
          · obtain ⟨deeds, o, held, st₂, done⟩ := inside st₁
            obtain rfl := done.held_siblings
            rcases closed : (Loop.closes f c o).run st₂ with ⟨c' | o', st₃⟩
            · obtain rfl := Loop.eq_next_of_closes closed
              have fewer := Cursor.room_next (Loop.lt_limit_of_opens opened)
              obtain ⟨deeds', o', held', st', others⟩ :=
                ih c.next.room (by omega) (counts ++ [c.iteration]) rfl st₃
              obtain rfl := others.held_rounds
              exact ⟨_, _, _, _, .next raised opened done closed others⟩
            · exact ⟨_, _, _, _, .last raised opened done closed⟩
          · exact ⟨_, _, _, _, .ended raised opened⟩

/-- An instruction ends if its children and calls do. -/
theorem ends_instruction {children : List Block}
    (inside : ∀ g : Frame, g.callDepth = f.callDepth → Ends limits g (.siblings none children))
    (calls : ∀ c, Ends limits f (.call c)) (previous : Option Bool) (i : Instruction) :
    Ends limits f (.instruction previous children i) := by
  intro st
  rcases chose : (choose limits f previous children i).run st with ⟨x, st₁⟩
  cases x with
  | settled o held => exact ⟨_, _, _, _, .settled chose⟩
  | postponed wait d => exact ⟨_, _, _, _, .postponed chose⟩
  | spread r t => exact ⟨_, _, _, _, .spread chose⟩
  | within g held =>
      obtain ⟨-, depth⟩ := made_of_choose chose
      obtain ⟨deeds, o, held', st', done⟩ := inside g depth st₁
      obtain rfl := done.held_siblings
      exact ⟨_, _, _, _, .within chose done⟩
  | loop r c =>
      obtain ⟨deeds, o, held, st', done⟩ := ends_rounds (r := r) (inside f rfl) c.room [] rfl st₁
      obtain rfl := done.held_rounds
      exact ⟨_, _, _, _, .loop chose done⟩
  | call c =>
      obtain ⟨deeds, o, held, st', done⟩ := calls c st₁
      obtain rfl := done.held_call
      exact ⟨_, _, _, _, .call chose done⟩

mutual

theorem ends_block {depth : Nat} (calls : ∀ g : Frame, g.callDepth = depth → ∀ c, Ends limits g (.call c)) :
    ∀ (b : Block) (f : Frame) (previous : Option Bool), f.callDepth = depth →
      Ends limits f (.block previous b)
  | ⟨id, i, children⟩, f, previous, here => by
      have inside : ∀ g : Frame, g.callDepth = f.callDepth → Ends limits g (.siblings none children) :=
        fun g same => ends_siblings calls children g none (same.trans here)
      intro st
      obtain ⟨deeds, o, held, st', done⟩ := ends_instruction inside (calls f here) previous i st
      exact ⟨_, _, _, _, .block done⟩

theorem ends_siblings {depth : Nat}
    (calls : ∀ g : Frame, g.callDepth = depth → ∀ c, Ends limits g (.call c)) :
    ∀ (bs : List Block) (f : Frame) (previous : Option Bool), f.callDepth = depth →
      Ends limits f (.siblings previous bs)
  | [], f, previous, here => fun st => ⟨_, _, _, _, .nil⟩
  | b :: rest, f, previous, here => by
      intro st
      obtain ⟨deeds, o, held, st₁, first⟩ := ends_block calls b f previous here st
      cases success : o.isSuccess with
      | false => exact ⟨_, _, _, _, .stop first success⟩
      | true =>
          obtain ⟨deeds', o', held', st', others⟩ := ends_siblings calls rest f held here st₁
          obtain rfl := others.held_siblings
          exact ⟨_, _, _, _, .go first success others⟩

end

/-- Calls end: each goes one deeper, and there is a depth at which none is made. -/
theorem ends_call (n : Nat) : ∀ f : Frame, callsLeft limits f = n → ∀ c, Ends limits f (.call c) := by
  induction n with
  | zero =>
      intro f none c st
      exact ⟨_, _, _, _, .tooDeep (Nat.le_of_sub_eq_zero none)⟩
  | succ n ih =>
      intro f left c st
      have room : f.callDepth < limits.maxCallDepth := by
        unfold callsLeft at left
        omega
      cases found : callee ⟨⟨f, st.scope⟩, st.machine.world⟩ c with
      | error e => exact ⟨_, _, _, _, .refused room found⟩
      | ok result =>
          obtain ⟨head, b, values⟩ := result
          have deeper := callDepth_bindParameters ⟨f, st.scope⟩ head.parameters values
          have fewer (g : Frame) (depth : g.callDepth = f.callDepth + 1) : callsLeft limits g = n := by
            unfold callsLeft at left ⊢
            omega
          have inside := ends_siblings (fun g depth => ih g (fewer g depth)) b.children
            (bindParameters ⟨f, st.scope⟩ head.parameters values).frame none deeper
          obtain ⟨deeds, o, held, st₁, done⟩ := inside ⟨_, st.machine⟩
          obtain rfl := done.held_siblings
          exact ⟨_, _, _, _, .entered room found done rfl⟩

/-- **Everything ends.** -/
theorem ends (limits : Limits) (f : Frame) (doing : Doing) : Ends limits f doing := by
  have calls (g : Frame) (c : Call) : Ends limits g (.call c) := ends_call _ g rfl c
  have siblings (bs : List Block) (g : Frame) (previous : Option Bool) :
      Ends limits g (.siblings previous bs) :=
    ends_siblings (fun g _ => calls g) bs g previous rfl
  cases doing with
  | instruction previous children i =>
      exact ends_instruction (fun g _ => siblings children g none) (calls f) previous i
  | block previous b => exact ends_block (fun g _ => calls g) b f previous rfl
  | siblings previous bs => exact siblings bs f previous
  | rounds r body c counts => exact ends_rounds (siblings body f none) _ counts rfl
  | call c => exact calls f c

end Ends

/-! ## Single iterations -/

/-- From a state, a loop makes one iteration or ends before its body. -/
inductive Iterates (limits : Limits) (f : Frame) (body : List Block) (c : Cursor) (st : RunState) :
    List Deed → Step → RunState → Prop where
  /-- The loop ends before its body. -/
  | ended {o : Outcome} {st' : RunState} (opened : (Loop.opens f c).run st = (some o, st')) :
      Iterates limits f body c st [] (.done o) st'
  /-- The body is entered. -/
  | entered {deeds : List Deed} {o : Outcome} {step : Step} {st₁ st₂ st' : RunState}
      (opened : (Loop.opens f c).run st = (none, st₁))
      (inside : Does limits f (.siblings none body) st₁ deeds (o, none) st₂)
      (closed : (Loop.closes f c o).run st₂ = (step, st')) :
      Iterates limits f body c st deeds step st'

namespace Iterates

variable {limits : Limits} {f : Frame} {body : List Block} {c : Cursor} {st st' : RunState}
  {deeds : List Deed} {step : Step}

theorem sound (h : Iterates limits f body c st deeds step st') :
    (Loop.iterate f (run limits f body) c).run st = (step, st') := by
  rw [Loop.iterate_eq]
  cases h with
  | ended opened =>
      rw [Run.bind_eq opened]
      rfl
  | entered opened inside closed =>
      have ran : (run limits f body).run _ = _ := Run.outcome_eq inside.sound
      rw [Run.bind_eq opened, Loop.around, Run.bind_eq ran, closed]

/-- A loop goes on with its next iteration. -/
theorem eq_next {c' : Cursor} (h : Iterates limits f body c st deeds (.next c') st') :
    c' = c.next := by
  cases h with
  | entered opened inside closed => exact Loop.eq_next_of_closes closed

theorem exists_of (limits : Limits) (f : Frame) (body : List Block) (c : Cursor) (st : RunState) :
    ∃ deeds step st', Iterates limits f body c st deeds step st' := by
  rcases opened : (Loop.opens f c).run st with ⟨_ | o, st₁⟩
  · obtain ⟨deeds, o, held, st₂, inside⟩ := ends limits f (.siblings none body) st₁
    obtain rfl := inside.held_siblings
    exact ⟨_, _, _, .entered opened inside rfl⟩
  · exact ⟨_, _, _, .ended opened⟩

end Iterates

/-- There is only one way to do something: the tests of the rules exclude one another, and everything
between the tests is a function of the state. -/
theorem Does.unique {limits : Limits} {f : Frame} {doing : Doing} {st st' st'' : RunState}
    {deeds deeds' : List Deed} {r r' : Outcome × Option Bool} (h : Does limits f doing st deeds r st')
    (h' : Does limits f doing st deeds' r' st'') : deeds' = deeds ∧ r' = r ∧ st'' = st' := by
  induction h generalizing deeds' r' st'' <;> cases h' <;> grind

end Blockwork
