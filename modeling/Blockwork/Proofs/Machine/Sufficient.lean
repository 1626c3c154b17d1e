import Blockwork.Proofs.Absence
import Blockwork.Proofs.Grammar
import Blockwork.Proofs.Machine.Deeds

/-!
# Blocks that have what they need

An instruction that lacks no parameter and meets its requirements runs without missing anything: by
itself it fails for blank names only, and a loop that it begins asks the question that it
has.  Loops and calls then add nothing but what the question lacks and what their bodies fail for.

## What is load-bearing

* `Run.Yields.after`: what the first part of a run yields is known to the rest, so the proof for a
  run follows its text.
* `Interpreter.yields_choose`: what an instruction comes to before any other block runs for it.  One
  case for each instruction.
-/

namespace Blockwork

open Interpreter

/-! ## What runs yield -/

namespace Run.Yields

variable {α β : Type} {P : α → Prop} {Q : β → Prop}

/-- What the first part yields is known to the rest. -/
theorem after {r : Run α} {k : α → Run β} (h : Yields P r) (h' : ∀ x, P x → Yields Q (k x)) :
    Yields Q (r >>= k) :=
  fun st => h' _ (h st) (r.run st).2

theorem pure {x : α} (h : P x) : Yields P (Pure.pure x : Run α) := fun _ => h

/-- What a run yields is known of its result. -/
theorem of_run {r : Run α} {st st' : RunState} {x : α} (h : Yields P r) (ran : r.run st = (x, st')) :
    P x := by
  have known := h st
  rwa [ran] at known

/-- The dice do not matter. -/
theorem roll {g : Dice → α × Dice} (h : ∀ dice, P (g dice).1) : Yields P (Run.roll g) :=
  fun st => h st.machine.dice

end Run.Yields

/-! ## Instructions that have what they need -/

/-- An instruction that lacks no parameter and meets its requirements. -/
structure Instruction.Suffices (i : Instruction) : Prop where
  /-- No required parameter is missing. -/
  present : ∀ name, ¬ i.Lacks name
  /-- What one parameter asks of another is there. -/
  requirements : ∀ reason, ¬ i.Unmet reason

theorem Block.Complete.suffices {b : Block} (h : b.Complete) : b.instruction.Suffices :=
  ⟨h.present, h.requirements⟩

/-- The question that a loop asks before or after its iterations. -/
def Repeat.question? (r : Repeat) : Option Condition :=
  match r.mode with
  | some .while_ | some .until_ => r.condition
  | _ => none

theorem Repeat.question?_eq_some_iff {r : Repeat} {q : Condition} :
    r.question? = some q ↔
      (∃ m, r.mode = some m ∧ (m = .while_ ∨ m = .until_)) ∧ r.condition = some q := by
  unfold question?
  split
  · next mode => simp [mode]
  · next mode => simp [mode]
  · next notWhile notUntil =>
    refine iff_of_false nofun ?_
    rintro ⟨⟨m, mode, rfl | rfl⟩, -⟩
    · exact notWhile mode
    · exact notUntil mode

/-- The question of a loop can lack nothing but what is allowed. -/
def Cursor.AsksFor (allowed : Absence → Prop) (c : Cursor) : Prop :=
  ∀ q, c.condition = some q → q.check ≠ none ∧ ∀ a, q.Lacks a → allowed a

namespace Instruction.Suffices

open Run (Yields)

variable {f : Frame} {allowed : Absence → Prop}

/-- A question that has what it needs gets an answer. -/
theorem if_ {c : Condition} (h : (Instruction.if_ c).Suffices) :
    c.check ≠ none ∧ ∀ a, ¬ c.Lacks a := by
  refine ⟨fun none => h.present _ (.check none), ?_⟩
  rintro a (⟨check, reads, none⟩ | ⟨check, reads, -, none⟩)
  · exact h.requirements _ (.left check reads none)
  · exact h.requirements _ (.right check reads none)

theorem start {r : Repeat} (h : (Instruction.repeat_ r).Suffices) (s : Scene) (limits : Limits) :
    AbsentOnly allowed (Cursor.start s limits r) := by
  unfold Cursor.start
  dsimp only
  split
  · next none => exact (h.present _ (.mode none)).elim
  · next mode => exact .map _ (s.absentOnly_number (fun none => h.requirements _ (.count mode none)) _)
  · next mode => exact .map _ (s.absentOnly_require (fun none => h.requirements _ (.list mode none)) _)
  · exact absentOnly_ok _
  · next m notTimes notForEach notForever mode =>
    split
    · exact absentOnly_ok _
    · next none =>
      refine (h.requirements _ (.condition mode ?_ none)).elim
      cases m with
      | while_ => exact .inl rfl
      | until_ => exact .inr rfl
      | times => exact (notTimes rfl).elim
      | forEach => exact (notForEach rfl).elim
      | forever => exact (notForever rfl).elim

theorem variableStep {v : VariableStep} (h : (Instruction.variable_ v).Suffices) :
    Yields (Outcome.AbsentOnly Absence.IsBlank) (Run.variableStep f v) := by
  refine .bind fun s => .after (.roll fun dice => s.absentOnly_variableUpdate dice
    (fun none => h.present _ (.variableOp none))
    (fun k op needs none => h.requirements _ (.value op needs none))
    (fun op none => h.requirements _ (.bound op none))) fun x known => ?_
  split
  · exact .pure (known.outcome rfl)
  · dsimp only
    split
    · exact .bind fun _ => .pure nofun
    · exact .bind fun _ => .pure nofun
    · exact .pure nofun

theorem mathStep {m : MathStep} (limits : Limits) (h : (Instruction.math m).Suffices) :
    Yields (Outcome.AbsentOnly Absence.IsBlank) (Run.mathStep limits f m) := by
  refine .bind fun s => .after (.roll fun dice => s.absentOnly_calculation limits.magnitude dice
    (fun none => h.present _ (.mathOp none)) (fun none => h.present _ (.mathLeft none))
    (fun k op binary none => h.requirements _ (.operand op binary none))) fun x known => ?_
  split
  · dsimp only
    split
    · exact .bind fun _ => .pure (known.outcome rfl)
    · exact .pure (known.outcome rfl)
  · exact .bind fun _ => .pure nofun

theorem textStep {t : TextStep} (limits : Limits) (h : (Instruction.text t).Suffices) :
    Yields (Outcome.AbsentOnly Absence.IsBlank) (Run.textStep limits f t) := by
  refine .bind fun s => ?_
  have known := s.absentOnly_textResult limits (fun none => h.present _ (.textOp none))
    (fun none => h.present _ (.textInput none))
  split
  · next failed => exact .pure (known.outcome failed)
  · exact .bind fun _ => .pure nofun

theorem message {shown : Option Value} (h : (Instruction.message shown).Suffices) :
    Yields (Outcome.AbsentOnly allowed) (Run.message f shown) := by
  have set : shown ≠ none := by
    rintro rfl
    exact h.present _ .message
  refine .bind fun s => ?_
  have known : AbsentOnly allowed _ := s.absentOnly_messageTo set
  split
  · next failed => exact .pure (known.outcome failed)
  · exact .bind fun _ => .pure nofun

theorem teleport {place : Option Value} (h : (Instruction.teleport place).Suffices) :
    Yields (Outcome.AbsentOnly allowed) (Run.teleport f place) := by
  have set : place ≠ none := by
    rintro rfl
    exact h.present _ .location
  refine .bind fun s => ?_
  have known : AbsentOnly allowed _ := s.absentOnly_moveTo set
  split
  · next failed => exact .pure (known.outcome failed)
  · split
    · exact .pure nofun
    · exact .bind fun _ => .pure nofun

end Instruction.Suffices

/-- A slot can be taken, and nothing else. -/
theorem Machine.absentOnly_takeSlot {allowed : Absence → Prop} (m : Machine) (actor : ActorId) :
    AbsentOnly allowed (m.takeSlot actor) := by
  refine .map _ ?_
  unfold LoopSlots.register
  split
  · exact absentOnly_error nofun
  · exact absentOnly_ok _

/-- A call can name what is no function, or give it other arguments. -/
theorem Interpreter.absentOnly_callee {allowed : Absence → Prop} (s : Scene) (c : Call) :
    AbsentOnly allowed (callee s c) := by
  unfold callee
  dsimp only
  split
  · exact absentOnly_error nofun
  · split
    · split
      · exact absentOnly_ok _
      · exact absentOnly_error nofun
    · exact absentOnly_error nofun

/-- A call fails as the function's body did. -/
theorem Interpreter.yields_leave {allowed : Absence → Prop} {f inner : Frame} {c : Call}
    {caller : Context} {o : Outcome} (known : o.AbsentOnly allowed) :
    Run.Yields (Outcome.AbsentOnly allowed) (leave f c caller inner o) := by
  cases o with
  | error e => exact .bind fun _ => .pure known
  | _ => exact .bind fun _ => .bind fun _ => .pure nofun

/-- A side effect can fail for a kind that is blank. -/
theorem Run.yields_sideEffect (f : Frame) (r : Request) :
    Yields (Outcome.AbsentOnly Absence.IsBlank) (Run.sideEffect f r) := by
  refine .bind fun s => ?_
  dsimp only
  split
  · refine .pure ?_
    rintro _ ⟨⟩
    trivial
  · intro st
    dsimp only [StateT.run]
    split
    · exact nofun
    · exact nofun

namespace Interpreter

open Run (Yields)

/-- What is known of a choice of an instruction that has what it needs: by itself it fails for blank
names only, a loop that it begins is its own, and its children know the same functions. -/
def Suited (f : Frame) (i : Instruction) : Choice → Prop
  | .settled o _ => o.AbsentOnly Absence.IsBlank
  | .postponed _ _ | .call _ => True
  | .spread r _ | .loop r _ => i = .repeat_ r
  | .within g _ => g.functions = f.functions

/-- **An instruction that has what it needs fails by itself for blank names only.** -/
theorem yields_choose {i : Instruction} (h : i.Suffices) (limits : Limits) (f : Frame)
    (previous : Option Bool) (children : List Block) :
    Yields (Suited f i) (choose limits f previous children i) := by
  have alone {r : Run Outcome} (h : Yields (Outcome.AbsentOnly Absence.IsBlank) r) :
      Yields (Suited f i) (do pure (.settled (← r) none)) :=
    .after h fun _ known => .pure known
  cases i with
  | event _ | function _ | break_ | continue_ => exact .pure nofun
  | if_ c =>
      obtain ⟨check, lacks⟩ := h.if_
      have answered (s : Scene) (dice : Dice) :
          AbsentOnly Absence.IsBlank (s.evaluate c dice).1 := by
        intro a failed
        rcases (s.evaluate_fails_iff c dice a).mp failed with ⟨none, -⟩ | lack
        · exact (check none).elim
        · exact (lacks a lack).elim
      refine .after (.bind fun s => .roll (answered s)) fun x known => ?_
      split
      · exact .pure rfl
      · exact .pure nofun
      · exact .pure (known.outcome rfl)
  | else_ =>
      rcases previous with _ | _ | _
      · exact .pure nofun
      · exact .pure rfl
      · exact .pure nofun
  | repeat_ r =>
      refine .bind fun s => ?_
      have started : AbsentOnly Absence.IsBlank _ := h.start s limits
      split
      · next failed => exact .pure (started.outcome failed)
      · split
        · intro st
          unfold handOver StateT.run
          dsimp only
          split
          · next failed => exact (st.machine.absentOnly_takeSlot f.actor).outcome failed
          · rfl
        · exact .pure rfl
  | target t =>
      have found (s : Scene) (dice : Dice) : AbsentOnly Absence.IsBlank (s.findTarget t dice).1 :=
        s.absentOnly_findTarget dice (fun none => h.present _ (.target none))
          fun k kind uses none => h.requirements _ (.targetName kind uses none)
      refine .bind fun s => .after (.roll (found s)) fun x known => ?_
      split
      · exact .pure (known.outcome rfl)
      · exact .pure rfl
  | callFunction c => exact .pure trivial
  | variable_ v => exact alone h.variableStep
  | math m => exact alone (h.mathStep limits)
  | text t => exact alone (h.textStep limits)
  | message shown => exact alone h.message
  | teleport place => exact alone h.teleport
  | sideEffect r => exact alone (Run.yields_sideEffect f r)
  | delay ticks =>
      have set : ticks ≠ none := by
        rintro rfl
        exact h.present _ .ticks
      refine .bind fun s => ?_
      have known : AbsentOnly Absence.IsBlank _ := s.absentOnly_number set "ticks"
      split
      · next failed => exact .pure (known.outcome failed)
      · split
        · exact fun st => trivial
        · exact .pure rfl
  | stopLoop => exact alone (.bind fun _ => .pure nofun)
  | return_ value => exact alone (.bind fun _ => .pure nofun)

end Interpreter

/-! ## Loops -/

namespace Loop

open Run (Yields)

variable {allowed : Absence → Prop} {f : Frame} {c : Cursor}

/-- A question is answered, unless it lacks what is allowed. -/
theorem yields_ask (asks : c.AsksFor allowed) : Yields (AbsentOnly allowed) (ask f c) := by
  unfold ask
  split
  · next q question =>
    obtain ⟨check, lacks⟩ := asks q question
    refine .bind fun s => .roll fun dice a failed => ?_
    rcases (s.evaluate_fails_iff q dice a).mp failed with ⟨none, -⟩ | lack
    · exact (check none).elim
    · exact lacks a lack
  · exact .pure (absentOnly_ok false)

/-- A loop that ends before its body fails for nothing but what its question lacks. -/
theorem yields_opens (asks : c.AsksFor allowed) :
    Yields (fun x => ∀ o, x = some o → o.AbsentOnly allowed) (opens f c) := by
  intro st o ends
  have known : AbsentOnly allowed ((ask f c).run st).1 := yields_ask asks st
  have opened : (opens f c).run st = (some o, ((opens f c).run st).2) := Prod.ext ends rfl
  rcases opens_some opened with ⟨-, -, rfl⟩ | ⟨-, -, rfl⟩ | ⟨-, answered⟩
  · exact nofun
  · exact nofun
  · rcases answer : ((ask f c).run st).1 with e | _ | _ <;> rw [answer] at answered known
    · exact answered ▸ known.outcome rfl
    · exact answered ▸ nofun
    · exact answered.2 ▸ nofun

/-- A loop that ends after its body fails as the body did, or for what its question lacks. -/
theorem yields_closes (asks : c.AsksFor allowed) {o : Outcome} (known : o.AbsentOnly allowed) :
    Yields (fun step => ∀ o', step = .done o' → o'.AbsentOnly allowed) (closes f c o) := by
  intro st o' ends
  have lacks : AbsentOnly allowed ((ask f c.next).run st).1 :=
    yields_ask (show c.next.AsksFor allowed from asks) st
  have closed : (closes f c o).run st = (.done o', ((closes f c o).run st).2) := Prod.ext ends rfl
  rcases closes_done closed with ⟨-, rfl⟩ | ⟨-, rfl⟩ | ⟨-, -, answered⟩
  · exact nofun
  · exact known
  · rcases answer : ((ask f c.next).run st).1 with e | _ | _ <;> rw [answer] at answered lacks
    · exact answered ▸ lacks.outcome rfl
    · cases answered
    · exact answered ▸ nofun

end Loop

/-- The question of a loop is the one that the block has. -/
theorem Cursor.condition_start {s : Scene} {limits : Limits} {r : Repeat} {c : Cursor}
    (started : start s limits r = .ok c) : c.condition = r.question? := by
  obtain ⟨-, -, mode, given⟩ := start_cases started
  unfold Repeat.question?
  rw [mode]
  cases own : c.mode with
  | times | forEach =>
      rw [own] at given
      exact given.1
  | while_ | until_ | forever =>
      rw [own] at given
      exact given

end Blockwork
