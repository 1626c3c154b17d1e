import Blockwork.Proofs.Machine.Iterations
import Blockwork.Proofs.Requirements

/-!
# What can be absent when an instruction runs

A block that runs asks for its parameters one by one, and fails when one is not there.  An
instruction that lacks nothing and meets its requirements fails for nothing but a name that comes
out blank: the name of a variable whose template is empty when it is filled in, or a kind of side
effect that is all blanks.  The list that validation goes through and the list that the interpreter
goes through are the same, with one exception: the question of a loop.  Validation looks at its
check and not at its operands, so what such a question can lack is left as a parameter here.

## What is load-bearing

* `Scene.answer_fails_iff`: a question fails for want of something exactly if it has no check or
  lacks an operand, whatever the scene and the dice are.
* `AbsentOnly`: nothing absent but what is allowed.  It goes through `bind`, so the proof for an
  operation follows its text.
-/

namespace Blockwork

/-! ## Failures for want of something -/

/-- A name that is there and comes out blank. -/
def Absence.IsBlank : Absence → Prop
  | .variableName | .result _ | .effectKind => True
  | _ => False

/-- If an attempt fails because something is absent, it is something that is allowed to be. -/
def AbsentOnly (allowed : Absence → Prop) {α : Type} (x : Attempt α) : Prop :=
  ∀ a, x = .error (.absent a) → allowed a

/-- If an outcome is a failure because something is absent, that is something allowed. -/
def Outcome.AbsentOnly (allowed : Absence → Prop) (o : Outcome) : Prop :=
  ∀ a, o = .error (.absent a) → allowed a

section AbsentOnly

variable {allowed : Absence → Prop} {α β : Type}

theorem absentOnly_ok (v : α) : AbsentOnly allowed (.ok v) := nofun

theorem absentOnly_pure (v : α) : AbsentOnly allowed (pure v : Attempt α) := absentOnly_ok v

theorem absentOnly_error {e : Failure} (other : ∀ a, e ≠ .absent a) :
    AbsentOnly allowed (.error e : Attempt α) := by
  rintro a ⟨⟩
  exact (other a rfl).elim

theorem absentOnly_blank {a : Absence} (blank : a.IsBlank) :
    AbsentOnly Absence.IsBlank (.error (.absent a) : Attempt α) := by
  rintro _ ⟨⟩
  exact blank

theorem AbsentOnly.bind {x : Attempt α} {f : α → Attempt β} (h : AbsentOnly allowed x)
    (h' : ∀ v, AbsentOnly allowed (f v)) : AbsentOnly allowed (x >>= f) := by
  cases x with
  | error e =>
      rintro a ⟨⟩
      exact h a rfl
  | ok v => exact h' v

theorem AbsentOnly.map {x : Attempt α} (f : α → β) (h : AbsentOnly allowed x) :
    AbsentOnly allowed (x.map f) := by
  cases x with
  | error e =>
      rintro a ⟨⟩
      exact h a rfl
  | ok v => exact absentOnly_ok (f v)

/-- The failure of one attempt makes another fail. -/
theorem AbsentOnly.raise {x : Attempt α} {e : Failure} (h : AbsentOnly allowed x)
    (failed : x = .error e) : AbsentOnly allowed (.error e : Attempt β) := by
  rintro a ⟨⟩
  exact h a failed

/-- The failure of an attempt is the outcome. -/
theorem AbsentOnly.outcome {x : Attempt α} {e : Failure} (h : AbsentOnly allowed x)
    (failed : x = .error e) : (Outcome.error e).AbsentOnly allowed := by
  rintro a ⟨⟩
  exact h a failed

end AbsentOnly

/-! ## Values -/

namespace Scene

variable {allowed : Absence → Prop} (s : Scene) {v : Option Value}

theorem absentOnly_require (set : v ≠ none) (what : String) :
    AbsentOnly allowed (s.require v what) := by
  cases v with
  | none => exact (set rfl).elim
  | some v => exact absentOnly_ok _

theorem absentOnly_number (set : v ≠ none) (what : String) :
    AbsentOnly allowed (s.number v what) := by
  refine (s.absentOnly_require set what).bind fun d => ?_
  split
  all_goals first
    | exact absentOnly_pure _
    | exact absentOnly_error nofun

theorem absentOnly_text (set : v ≠ none) (what : String) : AbsentOnly allowed (s.text v what) :=
  (s.absentOnly_require set what).bind fun _ => absentOnly_pure _

theorem absentOnly_location (set : v ≠ none) (what : String) :
    AbsentOnly allowed (s.location v what) := by
  refine (s.absentOnly_require set what).bind fun d => ?_
  split
  · exact absentOnly_pure _
  · exact absentOnly_pure _
  · split
    · exact absentOnly_pure _
    · exact absentOnly_error nofun
  · split
    · exact absentOnly_pure _
    · exact absentOnly_error nofun
  · exact absentOnly_error nofun
  · exact absentOnly_error nofun

theorem absentOnly_onlineActors (unknown : Unknown) :
    AbsentOnly allowed (s.onlineActors unknown) := by
  unfold onlineActors
  split
  · exact absentOnly_error nofun
  · exact absentOnly_ok _

end Scene

/-! ## Questions -/

/-- What a check calls its left operand when it is missing. -/
def Check.leftName : Check → String
  | .variableExists => "variable name"
  | .healthAbove => "health threshold"
  | .chance => "chance"
  | _ => "left operand"

/-- The operand that a question lacks: the left one if its check reads it, and otherwise the right
one. -/
inductive Condition.Lacks (c : Condition) : Absence → Prop
  | left {k : Check} : c.check = some k → k.readsLeft → c.left = none →
      Lacks c (.operand k.leftName)
  | right {k : Check} : c.check = some k → k.readsRight → c.left ≠ none → c.right = none →
      Lacks c (.operand "right operand")

namespace Scene

variable (s : Scene) {c : Condition} {k : Check} (dice : Dice)

/-- A check without the left operand that it reads. -/
theorem answer_of_left (reads : k.readsLeft) (none : c.left = none) :
    (s.answer k c dice).1 = .error (.missing k.leftName) := by
  unfold answer
  rw [none]
  cases k with
  | targetExists => cases reads
  | _ => rfl

/-- A check with the left operand and without the right one, which it reads. -/
theorem answer_of_right (reads : k.readsRight) (some : c.left ≠ none) (none : c.right = none) :
    (s.answer k c dice).1 = .error (.missing "right operand") := by
  obtain ⟨v, left⟩ := Option.ne_none_iff_exists'.mp some
  unfold answer
  rw [left, none]
  cases k with
  | variableExists | targetExists | targetInWorld | healthAbove | chance => cases reads
  | _ => rfl

/-- A check with the operands that it reads. -/
theorem answer_of_both {allowed : Absence → Prop} (left : k.readsLeft → c.left ≠ none)
    (right : k.readsRight → c.right ≠ none) : AbsentOnly allowed (s.answer k c dice).1 := by
  unfold answer
  cases k with
  | targetExists => exact absentOnly_ok _
  | variableExists =>
      refine AbsentOnly.map _ ?_
      unfold variableOperand
      split
      · exact absentOnly_ok _
      · exact absentOnly_ok _
      · next none => exact (left rfl none).elim
  | targetInWorld =>
      refine (s.absentOnly_require (left rfl) _).bind fun _ => ?_
      exact (s.absentOnly_onlineActors _).bind fun _ => absentOnly_pure _
  | healthAbove =>
      refine (s.absentOnly_number (left rfl) _).bind fun _ => ?_
      exact (s.absentOnly_onlineActors _).bind fun _ => absentOnly_pure _
  | chance =>
      dsimp only
      split
      · exact absentOnly_ok _
      · next e failed => exact (s.absentOnly_number (left rfl) _).raise failed
  | _ =>
      refine (s.absentOnly_require (left rfl) _).bind fun _ => ?_
      exact (s.absentOnly_require (right rfl) _).bind fun _ => absentOnly_pure _

/-- **A check fails for want of an operand exactly if the question lacks it**, whatever the scene
and the dice are. -/
theorem answer_fails_iff (check : c.check = some k) (a : Absence) :
    (s.answer k c dice).1 = .error (.absent a) ↔ c.Lacks a := by
  constructor
  · intro failed
    by_cases left : k.readsLeft ∧ c.left = none
    · rw [s.answer_of_left dice left.1 left.2] at failed
      cases failed
      exact .left check left.1 left.2
    · by_cases right : k.readsRight ∧ c.right = none
      · have some : c.left ≠ none := by
          intro none
          refine left ⟨?_, none⟩
          cases k with
          | targetExists => exact right.1
          | _ => rfl
        rw [s.answer_of_right dice right.1 some right.2] at failed
        cases failed
        exact .right check right.1 some right.2
      · have known : AbsentOnly (fun _ => False) (s.answer k c dice).1 :=
          s.answer_of_both dice (fun reads none => left ⟨reads, none⟩)
            (fun reads none => right ⟨reads, none⟩)
        exact (known a failed).elim
  · rintro (⟨check', reads, none⟩ | ⟨check', reads, some, none⟩)
    · rw [check, Option.some_inj] at check'
      subst check'
      exact s.answer_of_left dice reads none
    · rw [check, Option.some_inj] at check'
      subst check'
      exact s.answer_of_right dice reads some none

/-- A question fails for want of something exactly if it has no check or lacks an operand. -/
theorem evaluate_fails_iff (c : Condition) (dice : Dice) (a : Absence) :
    (s.evaluate c dice).1 = .error (.absent a) ↔ (c.check = none ∧ a = .check) ∨ c.Lacks a := by
  unfold evaluate
  cases check : c.check with
  | none =>
      have answered : ¬ c.Lacks a := by
        rintro (⟨check', -, -⟩ | ⟨check', -, -, -⟩) <;> rw [check] at check' <;> cases check'
      simp [answered, eq_comm]
  | some k =>
      rw [← s.answer_fails_iff dice check]
      dsimp only
      cases (s.answer k c dice).1 with
      | error e => simp [Except.map]
      | ok b => simp [Except.map]

end Scene

/-! ## Single blocks -/

section Operations

variable {allowed : Absence → Prop}

theorem absentOnly_diceNumber (a b : Float) (dice : Dice) :
    AbsentOnly allowed (dice.number a b).1 := by
  unfold Dice.number
  dsimp only
  split_ifs
  all_goals first
    | exact absentOnly_ok _
    | exact absentOnly_error nofun

theorem absentOnly_dicePick (list : Datum) (dice : Dice) : AbsentOnly allowed (dice.pick list).1 := by
  unfold Dice.pick
  split
  · exact absentOnly_ok _
  · exact absentOnly_error nofun

theorem absentOnly_info (a : Actor) (key : String) : AbsentOnly allowed (a.info key) := by
  unfold Actor.info
  dsimp only
  split_ifs
  all_goals first
    | exact absentOnly_ok _
    | exact absentOnly_error nofun

/-- A calculation can be undefined or panic, and nothing else. -/
theorem absentOnly_apply (op : MathOp) (left right limit : Float) (dice : Dice) :
    AbsentOnly allowed (op.apply left right limit dice).1 := by
  have computed : AbsentOnly allowed (op.compute left right dice).1 := by
    unfold MathOp.compute
    cases op
    all_goals dsimp only
    all_goals try split_ifs
    all_goals first
      | exact absentOnly_ok _
      | exact absentOnly_error nofun
  unfold MathOp.apply
  split
  · unfold MathOp.limited clamp
    dsimp only
    split_ifs
    all_goals first
      | exact absentOnly_ok _
      | exact absentOnly_error nofun
  · next failed =>
    rw [failed] at computed
    exact computed

end Operations

namespace Scene

variable (s : Scene) {allowed : Absence → Prop}

/-- A variable block that has what it needs. -/
theorem absentOnly_variableUpdate {v : VariableStep} (dice : Dice) (op : v.op ≠ none)
    (value : ∀ k, v.op = some k → k.needsValue → v.value ≠ none)
    (bound : v.op = some .randomNumber → v.extra ≠ none) :
    AbsentOnly Absence.IsBlank (s.variableUpdate v dice).1 := by
  obtain ⟨k, known⟩ := Option.ne_none_iff_exists'.mp op
  have set := value k known
  unfold variableUpdate
  rw [known]
  dsimp only
  split
  · exact absentOnly_blank trivial
  cases k with
  | set => exact .map _ (.map _ (s.absentOnly_require (set rfl) _))
  | add => exact .map _ (.map _ (s.absentOnly_number (set rfl) _))
  | subtract => exact .map _ (.map _ (s.absentOnly_number (set rfl) _))
  | multiply => exact .map _ (.map _ (s.absentOnly_number (set rfl) _))
  | divide => exact .map _ (.map _ (s.absentOnly_number (set rfl) _))
  | append => exact .map _ (.map _ (.map _ (s.absentOnly_require (set rfl) _)))
  | increment => exact .map _ (absentOnly_ok _)
  | decrement => exact .map _ (absentOnly_ok _)
  | clear => exact .map _ (absentOnly_ok _)
  | toNumber => exact .map _ (absentOnly_ok _)
  | toText => exact .map _ (absentOnly_ok _)
  | copy =>
      obtain ⟨source, here⟩ := Option.ne_none_iff_exists'.mp (set rfl)
      refine .map _ (.map _ ?_)
      rw [here]
      dsimp only
      split
      · exact absentOnly_ok _
      · exact absentOnly_error nofun
  | randomNumber =>
      dsimp only
      split
      · next e failed => exact (s.absentOnly_number (set rfl) _).raise failed
      · next low _ =>
        split
        · next e failed => exact (s.absentOnly_number (bound known) _).raise failed
        · next high _ => exact .map _ (absentOnly_diceNumber low high dice)
  | randomChoice =>
      dsimp only
      split
      · next e failed => exact (s.absentOnly_require (set rfl) _).raise failed
      · next list _ => exact .map _ (absentOnly_dicePick list dice)
  | actorInfo =>
      refine .map _ (.map _ ?_)
      refine (s.absentOnly_text (set rfl) _).bind fun key =>
        (s.absentOnly_onlineActors _).bind fun _ => ?_
      split
      · next a _ => exact absentOnly_info a key
      · exact absentOnly_error nofun

/-- A math block that has what it needs. -/
theorem absentOnly_calculation {m : MathStep} (limit : Float) (dice : Dice) (op : m.op ≠ none)
    (left : m.left ≠ none) (right : ∀ k, m.op = some k → k.isBinary → m.right ≠ none) :
    AbsentOnly Absence.IsBlank (s.calculation m limit dice).1 := by
  obtain ⟨k, known⟩ := Option.ne_none_iff_exists'.mp op
  have operands : AbsentOnly Absence.IsBlank (do
      let left ← s.number m.left "left operand"
      let right ← if k.isBinary then s.number m.right "right operand" else pure 0
      let result := s.variableName m.result
      if result.isEmpty then throw (.absent (.result "math"))
      pure (k, left, right, result) : Attempt (MathOp × Float × Float × String)) := by
    have named (x y : Float) : AbsentOnly Absence.IsBlank (
        if (s.variableName m.result).isEmpty then .error (.absent (.result "math"))
        else .ok (k, x, y, s.variableName m.result) : Attempt (MathOp × Float × Float × String)) := by
      split
      · exact absentOnly_blank trivial
      · exact absentOnly_ok _
    refine (s.absentOnly_number left _).bind fun x => ?_
    dsimp only
    split
    · next binary => exact (s.absentOnly_number (right k known binary) _).bind fun y => named x y
    · rw [pure_bind]
      exact named x _
  unfold calculation
  rw [known]
  dsimp only
  split
  · next e failed => exact operands.raise failed
  · next k left right result _ => exact .map _ (absentOnly_apply k left right limit dice)

/-- A text block that has what it needs. -/
theorem absentOnly_textResult {t : TextStep} (limits : Limits) (op : t.op ≠ none)
    (input : t.input ≠ none) : AbsentOnly Absence.IsBlank (s.textResult t limits) := by
  obtain ⟨k, known⟩ := Option.ne_none_iff_exists'.mp op
  unfold textResult
  rw [known]
  refine AbsentOnly.bind (absentOnly_pure k) fun _ => (s.absentOnly_text input _).bind fun _ => ?_
  dsimp only
  split
  · exact absentOnly_blank trivial
  · exact absentOnly_pure _

theorem absentOnly_messageTo {shown : Option Value} (set : shown ≠ none) :
    AbsentOnly allowed (s.messageTo shown) :=
  (s.absentOnly_text set _).bind fun _ =>
    (s.absentOnly_onlineActors _).bind fun _ => absentOnly_pure _

theorem absentOnly_moveTo {place : Option Value} (set : place ≠ none) :
    AbsentOnly allowed (s.moveTo place) :=
  (s.absentOnly_location set _).bind fun _ =>
    (s.absentOnly_onlineActors _).bind fun _ => absentOnly_pure _

/-- A target block that has what it needs. -/
theorem absentOnly_findTarget {t : Targeting} (dice : Dice) (kind : t.kind ≠ none)
    (name : ∀ k, t.kind = some k → k.usesName → t.name ≠ none) :
    AbsentOnly allowed (s.findTarget t dice).1 := by
  have radius : AbsentOnly allowed (s.radius t) := by
    unfold Scene.radius
    split
    · next set => exact s.absentOnly_number (by rw [set]; exact Option.some_ne_none _) _
    · exact absentOnly_ok _
  obtain ⟨k, known⟩ := Option.ne_none_iff_exists'.mp kind
  have named := name k known
  unfold findTarget
  rw [known]
  cases k with
  | currentActor | allOnline | sameWorld | randomActor => exact absentOnly_ok _
  | nearestActor | nearestEntity | entitiesInRadius =>
      dsimp only
      split
      · exact absentOnly_ok _
      · exact .map _ radius
  | actorByName => exact .map _ (s.absentOnly_text (named rfl) _)
  | variable_ =>
      dsimp only
      split
      · next none => exact (named rfl none).elim
      · exact absentOnly_ok _

end Scene

end Blockwork
