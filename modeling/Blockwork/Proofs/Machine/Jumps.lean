import Blockwork.Proofs.Machine.Bounds
import Blockwork.Proofs.Machine.Sufficient
import Blockwork.Proofs.Machine.Unwinding

/-!
# Where jumps come from and where they end

A block can leave those around it early: the innermost loop, the present iteration, or the function.  Who
is left can be told from the text.  Loops keep the first two kinds of jump to themselves, calls keep the
third, and nothing else keeps any; so a run can only end with a jump that occurs in its blocks outside
what would have kept it (`Does.exposes`).

## What is load-bearing

* `choose_jumps`: of the eighteen instructions three begin a jump, and those settle the matter by
  themselves.  All others only hand on what they are given.
* A returned value is followed on its way by `Does.cutsShort` while it is in the body of the function,
  and by `Amid.last_call` and `Begins.call_returns` where it leaves the body.
-/

namespace Blockwork

open Interpreter

/-- A way to leave blocks early. -/
inductive Jump where
  /-- Out of the innermost loop. -/
  | break_
  /-- To the next iteration. -/
  | continue_
  /-- Out of the function. -/
  | return_
deriving DecidableEq

/-- The jump that an outcome is. -/
def Outcome.jump? : Outcome → Option Jump
  | .break_ => some .break_
  | .continue_ => some .continue_
  | .return_ _ => some .return_
  | .success | .error _ => none

/-- The jump that an instruction begins. -/
def Instruction.jump? : Instruction → Option Jump
  | .break_ => some .break_
  | .continue_ => some .continue_
  | .return_ _ => some .return_
  | _ => none

/-- Whether an instruction keeps the jumps of its children to itself. -/
def Instruction.keeps (j : Jump) : Instruction → Bool
  | .repeat_ _ => j != .return_
  | .function _ => true
  | _ => false

mutual

/-- Whether a jump occurs in a block, outside what keeps it. -/
def Block.exposes (j : Jump) : Block → Bool
  | ⟨_, i, children⟩ => i.jump? == some j || (!i.keeps j && exposesAny j children)

/-- Whether a jump occurs in some block, outside what keeps it. -/
def Block.exposesAny (j : Jump) : List Block → Bool
  | [] => false
  | b :: rest => exposes j b || exposesAny j rest

end

/-- Whether a jump occurs in what is to be done, outside what keeps it. -/
def Doing.exposes (j : Jump) : Doing → Bool
  | .instruction _ children i => i.jump? == some j || (!i.keeps j && Block.exposesAny j children)
  | .block _ b => b.exposes j
  | .siblings _ bs => Block.exposesAny j bs
  | .rounds _ body _ _ => j == .return_ && Block.exposesAny j body
  | .call _ => false

/-! ## Instructions by themselves -/

namespace Run

/-- What a run yields is not a jump. -/
def Straight (r : Run Outcome) : Prop := Yields (fun o => o.jump? = none) r

namespace Straight

theorem pure {o : Outcome} (h : o.jump? = none) : Straight (pure o) := Yields.pure h

theorem bind {α : Type} {r : Run α} {k : α → Run Outcome} (h : ∀ x, Straight (k x)) :
    Straight (r >>= k) := Yields.bind h

theorem variableStep (f : Frame) (v : VariableStep) : Straight (Run.variableStep f v) := by
  refine .bind fun s => .bind fun found => ?_
  split
  · exact .pure rfl
  · split
    · exact .bind fun _ => .pure rfl
    · exact .bind fun _ => .pure rfl
    · exact .pure rfl

theorem mathStep (limits : Limits) (f : Frame) (m : MathStep) : Straight (Run.mathStep limits f m) := by
  refine .bind fun s => .bind fun found => ?_
  split
  · split
    · exact .bind fun _ => .pure rfl
    · exact .pure rfl
  · exact .bind fun _ => .pure rfl

theorem textStep (limits : Limits) (f : Frame) (t : TextStep) : Straight (Run.textStep limits f t) := by
  refine .bind fun s => ?_
  split
  · exact .pure rfl
  · exact .bind fun _ => .pure rfl

theorem message (f : Frame) (shown : Option Value) : Straight (Run.message f shown) := by
  refine .bind fun s => ?_
  split
  · exact .pure rfl
  · exact .bind fun _ => .pure rfl

theorem teleport (f : Frame) (place : Option Value) : Straight (Run.teleport f place) := by
  refine .bind fun s => ?_
  split
  · exact .pure rfl
  · split
    · exact .pure rfl
    · exact .bind fun _ => .pure rfl

theorem sideEffect (f : Frame) (r : Request) : Straight (Run.sideEffect f r) := by
  refine .bind fun s => ?_
  dsimp only
  split
  · exact .pure rfl
  · intro st
    unfold StateT.run
    dsimp only
    split <;> rfl

theorem stopLoop (f : Frame) : Straight (Run.stopLoop f) := .bind fun _ => .pure rfl

end Straight

end Run

/-- What an instruction comes to: a jump that it settles is its own, and children that run are not kept
from theirs. -/
def Choice.Leads (i : Instruction) : Choice → Prop
  | .settled o _ => ∀ j, o.jump? = some j → i.jump? = some j
  | .within _ _ => ∀ j, i.keeps j = false
  | _ => True

open Run (Yields Straight) in
/-- One case for each instruction. -/
theorem Interpreter.choose_jumps (limits : Limits) (f : Frame) (previous : Option Bool)
    (children : List Block) (i : Instruction) :
    Yields (Choice.Leads i) (choose limits f previous children i) := by
  have settles {o : Outcome} (held : Option Bool) (straight : o.jump? = none) :
      Yields (Choice.Leads i) (pure (.settled o held)) :=
    .pure fun j jumps => by rw [straight] at jumps; cases jumps
  have alone {r : Run Outcome} (straight : Straight r) :
      Yields (Choice.Leads i) (do pure (.settled (← r) none)) :=
    .after straight fun o => settles none
  cases i with
  | event _ | function _ => exact settles _ rfl
  | break_ | continue_ => exact .pure fun j jumps => jumps
  | return_ value =>
      have returns : Yields (fun o => ∃ d, o = .return_ d) (Run.return_ f value) := fun st => ⟨_, rfl⟩
      exact .after returns fun o ⟨d, own⟩ => .pure fun j jumps => by rw [← jumps, own]; rfl
  | callFunction c => exact .pure trivial
  | if_ c =>
      refine .bind fun answer => ?_
      rcases answer with e | _ | _
      · exact settles _ rfl
      · exact settles _ rfl
      · exact .pure fun j => rfl
  | else_ =>
      rcases previous with _ | _ | _
      · exact settles _ rfl
      · exact .pure fun j => rfl
      · exact settles _ rfl
  | repeat_ r =>
      refine .bind fun s => ?_
      split
      · exact settles _ rfl
      · split
        · intro st
          unfold handOver StateT.run
          dsimp only
          split
          · nofun
          · trivial
        · exact .pure trivial
  | target t =>
      refine .bind fun s => .bind fun found => ?_
      split
      · exact settles _ rfl
      · exact .pure fun j => rfl
  | delay ticks =>
      refine .bind fun s => ?_
      split
      · exact settles _ rfl
      · split
        · exact fun st => trivial
        · exact .pure fun j => rfl
  | variable_ v => exact alone (.variableStep f v)
  | math m => exact alone (.mathStep limits f m)
  | text t => exact alone (.textStep limits f t)
  | message shown => exact alone (.message f shown)
  | teleport place => exact alone (.teleport f place)
  | sideEffect r => exact alone (.sideEffect f r)
  | stopLoop => exact alone (.stopLoop f)

/-- The same, of a choice that is known. -/
theorem Interpreter.leads_of_choose {limits : Limits} {f : Frame} {previous : Option Bool}
    {children : List Block} {i : Instruction} {st st' : RunState} {x : Choice}
    (chose : (choose limits f previous children i).run st = (x, st')) : x.Leads i :=
  Run.Yields.of_run (choose_jumps limits f previous children i) chose

/-! ## Loops and calls -/

/-- A loop that ends before its body does not end with a jump. -/
theorem Loop.jump_of_opens {f : Frame} {c : Cursor} {o : Outcome} {st st' : RunState}
    (opened : (opens f c).run st = (some o, st')) : o.jump? = none := by
  rcases opens_some opened with ⟨-, -, rfl⟩ | ⟨-, -, rfl⟩ | ⟨-, answered⟩
  · rfl
  · rfl
  · split at answered
    · rw [answered.2]
      rfl
    · rw [answered]
      rfl
    · rw [answered]
      rfl

/-- A loop that ends with a jump has it from its body, and it is one out of the function. -/
theorem Loop.jump_of_closes {f : Frame} {c : Cursor} {o o' : Outcome} {j : Jump} {st st' : RunState}
    (closed : (closes f c o).run st = (.done o', st')) (jumps : o'.jump? = some j) :
    o' = o ∧ j = .return_ := by
  rcases closes_done closed with ⟨-, rfl⟩ | ⟨⟨e, rfl⟩ | ⟨v, rfl⟩, rfl⟩ | ⟨-, -, answered⟩
  · cases jumps
  · cases jumps
  · cases jumps
    exact ⟨rfl, rfl⟩
  · split at answered
    · rw [answered] at jumps
      cases jumps
    · cases answered
    · rw [answered] at jumps
      cases jumps

variable {limits : Limits}

/-- A call does not end with a jump. -/
theorem Does.jump_of_call {f : Frame} {c : Call} {st st' : RunState} {deeds : List Deed}
    {r : Outcome × Option Bool} (h : Does limits f (.call c) st deeds r st') : r.1.jump? = none := by
  cases h with
  | tooDeep _ | refused _ _ => rfl
  | @entered _ _ _ _ _ _ _ _ _ o _ _ _ _ left =>
      cases o with
      | error e =>
          cases left
          rfl
      | _ =>
          cases left
          rfl

/-! ## Runs -/

/-- **Jumps are static.**  What is done ends with a jump only if the jump occurs in it, outside what keeps
it, whatever is called. -/
theorem Does.exposes {f : Frame} {doing : Doing} {st st' : RunState} {deeds : List Deed}
    {r : Outcome × Option Bool} (h : Does limits f doing st deeds r st') {j : Jump}
    (jumps : r.1.jump? = some j) : doing.exposes j = true := by
  induction h with
  | settled chose =>
      have own := leads_of_choose chose j jumps
      simp [Doing.exposes, own]
  | within chose _ ih =>
      have open_ := leads_of_choose chose j
      simpa [Doing.exposes, open_] using .inr (ih jumps)
  | loop chose _ ih =>
      obtain ⟨rfl, -⟩ := fits_of_choose chose
      simpa [Doing.exposes, Instruction.keeps, Instruction.jump?] using ih jumps
  | call _ calls _ =>
      rw [calls.jump_of_call] at jumps
      cases jumps
  | block _ ih => simpa [Doing.exposes, Block.exposes] using ih jumps
  | stop _ _ ih =>
      have first := ih jumps
      simp_all [Doing.exposes, Block.exposesAny]
  | go _ _ _ _ ih' =>
      have others := ih' jumps
      simp_all [Doing.exposes, Block.exposesAny]
  | ended _ opened =>
      rw [Loop.jump_of_opens opened] at jumps
      cases jumps
  | last _ _ _ closed ih =>
      obtain ⟨rfl, rfl⟩ := Loop.jump_of_closes closed jumps
      simpa [Doing.exposes] using ih jumps
  | next _ _ _ _ _ _ ih' => exact ih' jumps
  | entered room found inside left _ =>
      rw [(Does.entered room found inside left).jump_of_call] at jumps
      cases jumps
  | postponed _ | spread _ | nil | cancelled _ | tooDeep _ | refused _ _ => cases jumps

/-- How far a returned value goes, when a number of calls is in progress. -/
structure Returned (limits : Limits) (x : Onset) (o : Outcome) (g : Frame) (b : Block)
    (v : Option Datum) (after : List Deed) (calls : Nat) (outer : List (Frame × Block))
    (previous : Option Bool) (s : RunState) : Prop where
  /-- The block that returns begins. -/
  way : Along limits x calls outer ⟨g, .block previous b, s⟩
  /-- It returns the value. -/
  ran : ∃ deeds held s', Does limits g (.block previous b) s deeds (.return_ v, held) s'
  /-- In the same body everything ends with the value, loops too, and nothing else is done. -/
  ends : calls = 0 →
    o = .return_ v ∧ (after.filter fun x => !x.endsLoop) = outer.map (Deed.ended (.return_ v))
  /-- In a body that was called, the last of the calls succeeds. -/
  succeeds : calls ≠ 0 → ∃ n h c s' deeds s'', calls = n + 1 ∧ Amid limits x n ⟨h, .call c, s'⟩ ∧
    Amid limits ⟨h, .call c, s'⟩ 1 ⟨g, .block previous b, s⟩ ∧
    Does limits h (.call c) s' deeds (.success, none) s''

theorem Does.returned {f : Frame} {doing : Doing} {st st' : RunState} {deeds : List Deed}
    {r : Outcome × Option Bool} (h : Does limits f doing st deeds r st') {before after : List Deed}
    {g : Frame} {b : Block} {v : Option Datum} (split : deeds = before ++ .ran g b (.return_ v) :: after) :
    ∃ calls outer previous s,
      Returned limits ⟨f, doing, st⟩ r.1 g b v after calls outer previous s := by
  obtain ⟨calls, outer, previous, s, way, ⟨deeds, held, s', -, ran⟩, cut⟩ := h.cutsShort split
  refine ⟨calls, outer, previous, s, way, ⟨_, held, s', ran⟩, cut, fun inside => ?_⟩
  obtain ⟨n, h, c, s₁, z, rfl, amid, entered, rest⟩ := way.amid.last_call inside
  obtain ⟨deeds', held', s₂, body⟩ := rest.hand_on ran rfl
  obtain ⟨deeds'', s₃, call⟩ := entered.call_returns body
  exact ⟨n, h, c, s₁, deeds'', s₃, rfl, amid, .into entered rest, call⟩

theorem Outcome.jump?_settled (o : Outcome) : o.settled.jump? = none := by
  cases o <;> rfl

/-- The end of a poll is not a jump. -/
theorem LoopTask.jump_of_poll {t : LoopTask} {m : Machine} {o : Outcome} (limits : Limits)
    (finished : (t.poll m limits).1 = .finished o) : o.jump? = none := by
  have polled := t.polled m limits
  generalize t.poll m limits = result at polled finished
  cases polled with
  | idle _ =>
      cases finished
      rfl
  | goesOn _ _ => cases finished
  | ends _ _ =>
      cases finished
      exact Outcome.jump?_settled _

/-- **Jumps keep to their scope.**  Whatever the functions, the context and the machine are: blocks in
which a jump does not occur, outside the loops and functions that keep it, do not end with it, whatever
they call.  A value that a block returns ends everything around the block in the same body, loops
included, and if the body was called, the call succeeds.  Lines, delayed bodies and loops that are polled
end with success or a failure. -/
theorem jumps_scoped (limits : Limits) (m : Machine) :
    (∀ (c : Context) (body : List Block) (j : Jump), Block.exposesAny j body = false →
      (c.runBlocks m limits body).1.jump? ≠ some j) ∧
    (∀ (c : Context) (body : List Block), ∃ deeds o st,
      Does limits c.frame (.siblings none body) ⟨c.scope, m⟩ deeds (o, none) st ∧
      c.runBlocks m limits body = (o, ⟨c.frame, st.scope⟩, st.machine) ∧
      ∀ before g b v after, deeds = before ++ .ran g b (.return_ v) :: after →
        ∃ calls outer previous s,
          Returned limits ⟨c.frame, .siblings none body, ⟨c.scope, m⟩⟩ o g b v after calls outer
            previous s) ∧
    (∀ (c : Context) (l : Line), (c.runLine m limits l).1.jump? = none) ∧
    (∀ d : Delayed, (d.run m limits).1.jump? = none) ∧
    (∀ (t : LoopTask) (o : Outcome), (t.poll m limits).1 = .finished o → o.jump? = none) := by
  refine ⟨fun c body j absent jumps => ?_, fun c body => ?_, fun c l => ?_,
    fun d => Outcome.jump?_settled _, fun t o finished => t.jump_of_poll limits finished⟩
  · obtain ⟨deeds, o, st, done, ran⟩ := c.exists_does m limits body
    rw [ran] at jumps
    have exposed : Block.exposesAny j body = true := done.exposes jumps
    rw [absent] at exposed
    cases exposed
  · obtain ⟨deeds, o, st, done, ran⟩ := c.exists_does m limits body
    exact ⟨deeds, o, st, done, ran, fun before g b v after split => done.returned split⟩
  · rw [Context.runLine]
    split
    · exact Outcome.jump?_settled _
    · rfl

end Blockwork
