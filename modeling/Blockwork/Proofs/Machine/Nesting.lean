import Blockwork.Proofs.Machine.Behalf

/-!
# What is in progress

While something is done, parts of it begin: a block, its instruction, the rounds of a loop, a call, the
body of the function that is called.  `Begins` is one step from something into the next part of it, and
`Amid` is any number of steps, with the number of calls that are in progress by then.

## What is load-bearing

* Of all the steps only one enters a call, `Begins.entered`, and it is the only one that changes the depth
  in the frame (`Begins.kept`).  So the depth in a frame is the depth at the beginning and the calls in
  progress, however the frame was come by (`Amid.kept`).
* Whatever is put off is put off in the middle of something (`Does.amid_of_mem`), and it keeps the frame
  that it finds there (`PutsOff.kept`).
-/

namespace Blockwork

open Interpreter

/-- Something that begins, in a frame and from a state. -/
structure Onset where
  /-- The frame. -/
  frame : Frame
  /-- What is done. -/
  doing : Doing
  /-- The state. -/
  state : RunState

/-- Something begins as the next part of something else, and a number of calls is entered with it. -/
inductive Begins (limits : Limits) : Onset → Nat → Onset → Prop where
  /-- The children of an instruction. -/
  | within {f g : Frame} {previous held : Option Bool} {children : List Block} {i : Instruction}
      {st st₁ : RunState} (chose : (choose limits f previous children i).run st = (.within g held, st₁)) :
      Begins limits ⟨f, .instruction previous children i, st⟩ 0 ⟨g, .siblings none children, st₁⟩
  /-- A loop at once. -/
  | loop {f : Frame} {previous : Option Bool} {children : List Block} {i : Instruction}
      {st st₁ : RunState} {r : Repeat} {c : Cursor}
      (chose : (choose limits f previous children i).run st = (.loop r c, st₁)) :
      Begins limits ⟨f, .instruction previous children i, st⟩ 0 ⟨f, .rounds r children c [], st₁⟩
  /-- A call. -/
  | call {f : Frame} {previous : Option Bool} {children : List Block} {i : Instruction}
      {st st₁ : RunState} {c : Call}
      (chose : (choose limits f previous children i).run st = (.call c, st₁)) :
      Begins limits ⟨f, .instruction previous children i, st⟩ 0 ⟨f, .call c, st₁⟩
  /-- The instruction of a block. -/
  | block {f : Frame} {previous : Option Bool} {id : BlockId} {i : Instruction}
      {children : List Block} {st : RunState} :
      Begins limits ⟨f, .block previous ⟨id, i, children⟩, st⟩ 0 ⟨f, .instruction previous children i, st⟩
  /-- The first of siblings. -/
  | first {f : Frame} {previous : Option Bool} {b : Block} {rest : List Block} {st : RunState} :
      Begins limits ⟨f, .siblings previous (b :: rest), st⟩ 0 ⟨f, .block previous b, st⟩
  /-- The other siblings, when the first has succeeded. -/
  | others {f : Frame} {previous held : Option Bool} {b : Block} {rest : List Block}
      {st st₁ : RunState} {deeds : List Deed} {o : Outcome}
      (first : Does limits f (.block previous b) st deeds (o, held) st₁)
      (succeeded : o.isSuccess = true) :
      Begins limits ⟨f, .siblings previous (b :: rest), st⟩ 0 ⟨f, .siblings held rest, st₁⟩
  /-- The body of a loop. -/
  | body {f : Frame} {r : Repeat} {body : List Block} {c : Cursor} {counts : List Nat}
      {st st₁ : RunState} (quiet : st.machine.signals.isRaised f.cancel = false)
      (opened : (Loop.opens f c).run st = (none, st₁)) :
      Begins limits ⟨f, .rounds r body c counts, st⟩ 0 ⟨f, .siblings none body, st₁⟩
  /-- The next round of a loop. -/
  | round {f : Frame} {r : Repeat} {body : List Block} {c c' : Cursor} {counts : List Nat}
      {st st₁ st₂ st₃ : RunState} {deeds : List Deed} {o : Outcome}
      (quiet : st.machine.signals.isRaised f.cancel = false)
      (opened : (Loop.opens f c).run st = (none, st₁))
      (inside : Does limits f (.siblings none body) st₁ deeds (o, none) st₂)
      (closed : (Loop.closes f c o).run st₂ = (.next c', st₃)) :
      Begins limits ⟨f, .rounds r body c counts, st⟩ 0
        ⟨f, .rounds r body c' (counts ++ [c.iteration]), st₃⟩
  /-- The body of a function. -/
  | entered {f : Frame} {c : Call} {st : RunState} {head : Function} {b : Block} {values : List Datum}
      (room : f.callDepth < limits.maxCallDepth)
      (found : callee ⟨⟨f, st.scope⟩, st.machine.world⟩ c = .ok (head, b, values)) :
      Begins limits ⟨f, .call c, st⟩ 1
        ⟨(bindParameters ⟨f, st.scope⟩ head.parameters values).frame, .siblings none b.children,
          ⟨(bindParameters ⟨f, st.scope⟩ head.parameters values).scope, st.machine⟩⟩

/-- While something is done, something begins, and a number of calls has been entered and not left. -/
inductive Amid (limits : Limits) : Onset → Nat → Onset → Prop where
  /-- The thing itself begins. -/
  | here {x : Onset} : Amid limits x 0 x
  /-- The beginning of a part. -/
  | into {x y z : Onset} {k n : Nat} (first : Begins limits x k y) (rest : Amid limits y n z) :
      Amid limits x (k + n) z

/-- What a frame shares with the one in which something began, a number of calls further out. -/
structure Frame.Kept (f : Frame) (n : Nat) (g : Frame) : Prop where
  /-- The actor is the same. -/
  actor : g.actor = f.actor
  /-- The depth has grown by the calls. -/
  callDepth : g.callDepth = f.callDepth + n
  /-- The signal is the same. -/
  cancel : g.cancel = f.cancel

variable {limits : Limits}

theorem Begins.kept {x y : Onset} {k : Nat} (h : Begins limits x k y) : x.frame.Kept k y.frame := by
  cases h with
  | within chose =>
      obtain ⟨⟨target, rfl⟩, -⟩ := fits_of_choose chose
      exact ⟨rfl, rfl, rfl⟩
  | entered _ _ =>
      show Frame.Kept _ 1 (bindParameters _ _ _).frame
      rw [bindParameters_frame]
      exact ⟨rfl, rfl, rfl⟩
  | loop _ | call _ | block | first | others _ _ | body _ _ | round _ _ _ _ => exact ⟨rfl, rfl, rfl⟩

/-- **The depth in a frame counts the calls in progress.** -/
theorem Amid.kept {x y : Onset} {n : Nat} (h : Amid limits x n y) : x.frame.Kept n y.frame := by
  induction h with
  | here => exact ⟨rfl, rfl, rfl⟩
  | into first rest ih =>
      obtain ⟨actor, callDepth, cancel⟩ := first.kept
      refine ⟨ih.actor.trans actor, ?_, ih.cancel.trans cancel⟩
      rw [ih.callDepth, callDepth, Nat.add_assoc]

/-! ## Work that is put off -/

/-- A deed by which work is put off. -/
def Deed.isPutOff : Deed → Bool
  | .postponed _ _ | .spread _ _ => true
  | _ => false

/-- With what begins, work is put off. -/
inductive PutsOff (limits : Limits) : Onset → Deed → Prop where
  /-- The children are put off. -/
  | postponed {f : Frame} {previous : Option Bool} {children : List Block} {i : Instruction}
      {st st' : RunState} {wait : Float} {d : Delayed}
      (chose : (choose limits f previous children i).run st = (.postponed wait d, st')) :
      PutsOff limits ⟨f, .instruction previous children i, st⟩ (.postponed wait d)
  /-- The children are handed over as the body of a loop. -/
  | spread {f : Frame} {previous : Option Bool} {children : List Block} {i : Instruction}
      {st st' : RunState} {r : Repeat} {t : LoopTask}
      (chose : (choose limits f previous children i).run st = (.spread r t, st')) :
      PutsOff limits ⟨f, .instruction previous children i, st⟩ (.spread r t)

/-- A body keeps the context in which it is put off. -/
theorem PutsOff.context_delayed {x : Onset} {wait : Float} {d : Delayed}
    (h : PutsOff limits x (.postponed wait d)) : d.context = ⟨x.frame, x.state.scope⟩ := by
  cases h with
  | postponed chose =>
      obtain ⟨-, rfl, -⟩ := made_of_choose chose
      rfl

/-- A loop keeps the context in which it is handed over, but for its own signal. -/
theorem PutsOff.context_loop {x : Onset} {r : Repeat} {t : LoopTask} (h : PutsOff limits x (.spread r t)) :
    t.context = ⟨{ x.frame with cancel := t.handle.signal }, x.state.scope⟩ := by
  cases h with
  | spread chose =>
      obtain ⟨s, c, handle, m, -, -, rfl, -⟩ := made_of_choose chose
      rfl

/-- **Whatever a run puts off, it puts off in the middle of something.** -/
theorem Does.amid_of_mem {f : Frame} {doing : Doing} {st st' : RunState} {deeds : List Deed}
    {r : Outcome × Option Bool} (h : Does limits f doing st deeds r st') {deed : Deed}
    (mem : deed ∈ deeds) (later : deed.isPutOff = true) :
    ∃ n x, Amid limits ⟨f, doing, st⟩ n x ∧ PutsOff limits x deed := by
  have into {x y : Onset} {k : Nat} (begins : Begins limits x k y)
      (inside : ∃ n z, Amid limits y n z ∧ PutsOff limits z deed) :
      ∃ n z, Amid limits x n z ∧ PutsOff limits z deed := by
    obtain ⟨n, z, amid, puts⟩ := inside
    exact ⟨k + n, z, .into begins amid, puts⟩
  induction h with
  | settled _ | nil | tooDeep _ | refused _ _ => cases mem
  | postponed chose =>
      obtain rfl := List.mem_singleton.mp mem
      exact ⟨0, _, .here, .postponed chose⟩
  | spread chose =>
      obtain rfl := List.mem_singleton.mp mem
      exact ⟨0, _, .here, .spread chose⟩
  | within chose _ ih => exact into (.within chose) (ih mem)
  | loop chose _ ih => exact into (.loop chose) (ih mem)
  | call chose _ ih => exact into (.call chose) (ih mem)
  | block _ ih =>
      rcases List.mem_append.mp mem with mem | mem
      · exact into .block (ih mem)
      · obtain rfl := List.mem_singleton.mp mem
        cases later
  | stop _ _ ih => exact into .first (ih mem)
  | go first succeeded _ ih ih' =>
      rcases List.mem_append.mp mem with mem | mem
      · exact into .first (ih mem)
      · exact into (.others first succeeded) (ih' mem)
  | cancelled _ | ended _ _ =>
      obtain rfl := List.mem_singleton.mp mem
      cases later
  | last quiet opened _ _ ih =>
      rcases List.mem_append.mp mem with mem | mem
      · exact into (.body quiet opened) (ih mem)
      · obtain rfl := List.mem_singleton.mp mem
        cases later
  | next quiet opened inside closed _ ih ih' =>
      rcases List.mem_append.mp mem with mem | mem
      · exact into (.body quiet opened) (ih mem)
      · exact into (.round quiet opened inside closed) (ih' mem)
  | entered room found _ _ ih =>
      rcases List.mem_cons.mp mem with rfl | mem
      · cases later
      · exact into (.entered room found) (ih mem)

/-! ## The limit -/

/-- What a call finds is never that too many calls are in progress. -/
theorem Interpreter.ne_excess_of_callee {s : Scene} {c : Call} {e : Failure}
    (found : callee s c = .error e) (excess : Excess) : e ≠ .excess excess := by
  unfold callee at found
  dsimp only at found
  split at found
  · cases found
    nofun
  · split at found
    · split at found
      · cases found
      · cases found
        nofun
    · cases found
      nofun

/-- A call is turned away for the depth of its frame, before anything else happens, exactly if the frame
is at the limit. -/
theorem Does.tooDeep_iff {f : Frame} {c : Call} {st st' : RunState} :
    Does limits f (.call c) st []
      (.error (.excess (.callDepth limits.maxCallDepth (Text.trim c.function))), none) st' ↔
    limits.maxCallDepth ≤ f.callDepth ∧ st' = st := by
  constructor
  · intro done
    cases done with
    | tooDeep full => exact ⟨full, rfl⟩
    | refused room found => exact absurd rfl (ne_excess_of_callee found _)
  · rintro ⟨full, rfl⟩
    exact .tooDeep full

end Blockwork
