import Blockwork.Params
import Blockwork.Proofs.Table
import Mathlib.Data.List.Nodup

/-!
# Instructions and their parameters

Flattening an instruction into named parameters and building one from them lose nothing but two
spellings: a call that asks for its result in a variable without a name, and a loop that waits no
tick between its iterations.  `Instruction.normal` is the instruction with these two written the
other way.

## What is load-bearing

* `Named.Distinct`: the names of a vocabulary are told apart when read, although case is ignored.
* `Instruction.ofParams_toParams`: every field of every instruction has a parameter of its own, and
  the parameter that is left out is the one whose absence is read as the field's value.
-/

namespace Blockwork

/-! ## Vocabularies -/

/-- The letters of a name in one case. -/
def Named.letters {α : Type} [Named α] (a : α) : List Char := (Named.name a).toList.map Char.toLower

/-- A vocabulary that lists all its members, under names that differ in more than case. -/
class Named.Distinct (α : Type) [Named α] : Prop where
  /-- All members are listed. -/
  complete : ∀ a : α, a ∈ (Named.all : List α)
  /-- No two have the same letters. -/
  nodup : ((Named.all : List α).map Named.letters).Nodup

/-- Every name is read as the member it is the name of. -/
theorem Named.ofName?_name {α : Type} [Named α] [Named.Distinct α] (a : α) :
    Named.ofName? (Named.name a) = some a := by
  have same : Text.sameLetters (Named.name a) (Named.name a) := Text.sameLetters_refl _
  cases found : (Named.ofName? (Named.name a) : Option α) with
  | none =>
      have := List.find?_eq_none.mp found a (Distinct.complete a)
      exact absurd same this
  | some b =>
      have read : Text.sameLetters (Named.name b) (Named.name a) := by
        have := List.find?_some found
        exact this
      have letters : Named.letters b = Named.letters a := beq_iff_eq.mp read
      rw [List.inj_on_of_nodup_map Distinct.nodup (Distinct.complete b) (Distinct.complete a) letters]

instance : Named.Distinct EventKind := ⟨fun a => by cases a <;> simp [Named.all], by decide +kernel⟩

instance : Named.Distinct LoopMode := ⟨fun a => by cases a <;> simp [Named.all], by decide +kernel⟩

instance : Named.Distinct TargetKind := ⟨fun a => by cases a <;> simp [Named.all], by decide +kernel⟩

instance : Named.Distinct VariableOp := ⟨fun a => by cases a <;> simp [Named.all], by decide +kernel⟩

instance : Named.Distinct MathOp := ⟨fun a => by cases a <;> simp [Named.all], by decide +kernel⟩

instance : Named.Distinct TextOp := ⟨fun a => by cases a <;> simp [Named.all], by decide +kernel⟩

instance : Named.Distinct Check := ⟨fun a => by cases a <;> simp [Named.all], by decide +kernel⟩

/-- Block types are read literally. -/
theorem BlockType.ofName?_name (t : BlockType) : BlockType.ofName? (Named.name t) = some t := by
  cases t <;> rfl

/-! ## Parameters -/

namespace Params

variable {p : Params} {name k : String}

@[simp] theorem get?_putValue (v : Option Value) :
    (p.putValue name v).get? k = if name = k then (v.map .value).or (p.get? k) else p.get? k := by
  cases v with
  | none => simp [putValue]
  | some v => simp [putValue, Table.get?_insert]

@[simp] theorem get?_putName {α : Type} [Named α] (a : Option α) :
    (p.putName name a).get? k =
      if name = k then (a.map fun a => .name (Named.name a)).or (p.get? k) else p.get? k := by
  cases a with
  | none => simp [putName]
  | some a => simp [putName, Table.get?_insert]

@[simp] theorem get?_putText (s : String) :
    (p.putText name s).get? k =
      if name = k ∧ ¬ s.isEmpty then some (.text s) else p.get? k := by
  unfold putText
  by_cases blank : s.isEmpty <;> simp [blank, Table.get?_insert]

@[simp] theorem get?_insertIf (c : Prop) [Decidable c] (q : Param) :
    Table.get? (if c then p.insert name q else p) k =
      if c ∧ name = k then some q else p.get? k := by
  by_cases h : c <;> simp [h, Table.get?_insert]

@[simp] theorem get?_insertUnless (c : Prop) [Decidable c] (q : Param) :
    Table.get? (if c then p else p.insert name q) k =
      if ¬ c ∧ name = k then some q else p.get? k := by
  by_cases h : c <;> simp [h, Table.get?_insert]

@[simp] theorem get?_empty : ({} : Params).get? name = none := rfl

theorem value?_of_get? {v : Option Value} (h : p.get? name = v.map .value) : p.value? name = v := by
  cases v <;> simp [value?, h]

theorem named?_of_get? {α : Type} [Named α] [Named.Distinct α] {a : Option α}
    (h : p.get? name = a.map fun a => .name (Named.name a)) : p.named? name = a := by
  cases a <;> simp [named?, h, Named.ofName?_name]

theorem text_of_get? {s : String} (h : p.get? name = if s.isEmpty then none else some (.text s)) :
    p.text name = s := by
  by_cases blank : s.isEmpty
  · simp [text, h, String.isEmpty_iff.mp blank]
  · simp [text, h, blank]

theorem isSet_of_get? {b : Bool} (h : p.get? name = if b then some (.bool true) else none) :
    p.isSet name = b := by
  cases b <;> simp [isSet, h]

theorem condition?_of_get? {c : Option Condition} (h : p.get? name = c.map .condition) :
    p.condition? name = c := by
  cases c <;> simp [condition?, h]

theorem names_of_get? {l : List String}
    (h : p.get? name = if l.isEmpty then none else some (.names l)) : p.names name = l := by
  cases l <;> simp [names, h]

theorem values_of_get? {t : Table String Value}
    (h : p.get? name = if t.isEmpty = false then some (.values t) else none) :
    p.values name = t := by
  by_cases vacant : t.isEmpty
  · have none : t = {} := Table.ext fun k => by
      rw [Table.get?, List.isEmpty_iff.mp vacant]
      rfl
    rw [if_neg (by simp [vacant])] at h
    simp [values, h, none]
  · simp [values, h, vacant]

theorem word32?_of_get? {n : Option UInt32} (h : p.get? name = n.map fun n => .integer n.toNat) :
    p.word32? name = n := by
  cases n with
  | none => simp [word32?, integer?, h]
  | some n =>
      have small : n.toNat < Nat.pow 2 32 := n.toNat_lt
      simp [word32?, integer?, h, small]

/-- A condition is rebuilt from its fields. -/
theorem toCondition_putCondition (c : Condition) : (putCondition {} c).toCondition = c := by
  obtain ⟨check, left, right, invert⟩ := c
  simp only [toCondition, Condition.mk.injEq]
  refine ⟨named?_of_get? ?_, value?_of_get? ?_, value?_of_get? ?_, isSet_of_get? ?_⟩ <;>
    simp [putCondition]

end Params

namespace Instruction

/-- The instruction as its parameters spell it: a result without a name is no result, and a loop
waits for at least one tick. -/
def normal : Instruction → Instruction
  | .callFunction c =>
    .callFunction { c with result := if c.result = some "" then none else c.result }
  | .repeat_ r => .repeat_ { r with interval := if r.interval = 0 then 1 else r.interval }
  | i => i

theorem ofParams_toParams_repeat (r : Repeat) :
    ofParams .repeat_ (toParams (.repeat_ r)) = normal (.repeat_ r) := by
  obtain ⟨mode, count, list, condition, isAsync, interval, maxIterations⟩ := r
  have wait : (toParams (.repeat_ ⟨mode, count, list, condition, isAsync, interval,
      maxIterations⟩)).word32? "interval" = if interval = 1 then none else some interval := by
    apply Params.word32?_of_get?
    cases condition <;> cases maxIterations <;> by_cases one : interval = 1 <;>
      simp [toParams, one, Table.get?_insert]
  have least : max ((if interval = 1 then none else some interval).getD 1) 1 =
      if interval = 0 then 1 else interval := by
    by_cases one : interval = 1
    · subst one
      rfl
    · by_cases zero : interval = 0
      · subst zero
        rfl
      · rw [if_neg one, if_neg zero, Option.getD_some]
        change (if interval ≤ 1 then 1 else interval) = interval
        rw [if_neg]
        intro small
        have small : interval.toNat ≤ 1 := UInt32.le_iff_toNat_le.mp small
        have notZero : interval.toNat ≠ 0 := fun h => zero (UInt32.toNat_inj.mp h)
        have notOne : interval.toNat ≠ 1 := fun h => one (UInt32.toNat_inj.mp h)
        omega
  simp only [normal, ofParams, repeat_.injEq, Repeat.mk.injEq, wait, least, true_and]
  -- the two optional parameters that are not put by a function of their own
  cases condition <;> cases maxIterations <;>
    refine ⟨Params.named?_of_get? ?_, Params.value?_of_get? ?_, Params.value?_of_get? ?_,
      Params.condition?_of_get? ?_, Params.isSet_of_get? ?_, Params.word32?_of_get? ?_⟩ <;>
    simp [toParams, Table.get?_insert]

/-- **An instruction is rebuilt from its parameters, up to its two spellings.** -/
theorem ofParams_toParams (i : Instruction) : ofParams i.blockType i.toParams = i.normal := by
  cases i with
  | else_ | stopLoop | break_ | continue_ => rfl
  | event kind => exact congrArg event (Params.named?_of_get? (by simp [toParams]))
  | if_ c => exact congrArg if_ (Params.toCondition_putCondition c)
  | message shown => exact congrArg message (Params.value?_of_get? (by simp [toParams]))
  | teleport place => exact congrArg teleport (Params.value?_of_get? (by simp [toParams]))
  | delay ticks => exact congrArg delay (Params.value?_of_get? (by simp [toParams]))
  | return_ value => exact congrArg return_ (Params.value?_of_get? (by simp [toParams]))
  | repeat_ r => exact ofParams_toParams_repeat r
  | target t =>
      obtain ⟨kind, radius, name⟩ := t
      simp only [normal, blockType, ofParams, target.injEq, Targeting.mk.injEq]
      refine ⟨Params.named?_of_get? ?_, Params.value?_of_get? ?_, Params.value?_of_get? ?_⟩ <;>
        simp [toParams]
  | function f =>
      obtain ⟨name, parameters⟩ := f
      simp only [normal, blockType, ofParams, function.injEq, Function.mk.injEq]
      refine ⟨Params.text_of_get? ?_, Params.names_of_get? ?_⟩ <;> simp [toParams]
  | callFunction c =>
      obtain ⟨function, arguments, result⟩ := c
      have called : (toParams (.callFunction ⟨function, arguments, result⟩)).text "result" =
          result.getD "" := by
        apply Params.text_of_get?
        cases result <;> simp [toParams]
      simp only [normal, blockType, ofParams, callFunction.injEq, Call.mk.injEq, called]
      refine ⟨Params.text_of_get? ?_, Params.text_of_get? ?_, ?_⟩
      · cases result <;> simp [toParams]
      · cases result <;> simp [toParams]
      · cases result <;> simp
  | variable_ v =>
      obtain ⟨op, name, value, extra⟩ := v
      simp only [normal, blockType, ofParams, variable_.injEq, VariableStep.mk.injEq]
      refine ⟨Params.named?_of_get? ?_, Params.text_of_get? ?_, Params.value?_of_get? ?_,
        Params.value?_of_get? ?_⟩ <;> simp [toParams]
  | math m =>
      obtain ⟨op, left, right, result⟩ := m
      simp only [normal, blockType, ofParams, math.injEq, MathStep.mk.injEq]
      refine ⟨Params.named?_of_get? ?_, Params.value?_of_get? ?_, Params.value?_of_get? ?_,
        Params.text_of_get? ?_⟩ <;> simp [toParams]
  | text t =>
      obtain ⟨op, input, argument, replacement, result⟩ := t
      simp only [normal, blockType, ofParams, text.injEq, TextStep.mk.injEq]
      refine ⟨Params.named?_of_get? ?_, Params.value?_of_get? ?_, Params.value?_of_get? ?_,
        Params.value?_of_get? ?_, Params.text_of_get? ?_⟩ <;> simp [toParams]
  | sideEffect s =>
      obtain ⟨kind, arguments⟩ := s
      simp only [normal, blockType, ofParams, sideEffect.injEq, Request.mk.injEq]
      refine ⟨Params.text_of_get? ?_, Params.values_of_get? ?_⟩ <;> simp [toParams]

end Instruction

end Blockwork
