import Blockwork.Proofs.Document.Values
import Blockwork.Validation
import Mathlib.Data.List.Duplicate
import Mathlib.Tactic.MkIffOfInductiveProp

/-!
# What an instruction needs

The requirements on one instruction, read off its own fields: which parameters must be there, which
values must be of one kind, which values a number literal can stand in, and which parameters another
one asks for.  None of the four relations mentions a schema or a table of parameters.  Validation
finds exactly what they say by flattening the instruction and going through its type's schema.

## What is load-bearing

* `Instruction.lacks_iff_schema`, `Instruction.confines_iff_schema` and
  `Instruction.holds_iff_schema`: the schema and the flattening together say of every field what the
  relations say of it.
* `Instruction.conflict?_eq_none_iff`: the first unmet requirement is found if there is one.
-/

namespace Blockwork

namespace Value

/-- Whether a value can stand where a kind is expected: it is of that kind, or it is a variable or a
text, which show what they are only when they are filled in. -/
def StandsFor (v : Value) (expected : ValueKind) : Prop :=
  v.kind = expected ∨ v.kind = .variable_ ∨ v.kind = .text

theorem satisfies_iff {v : Value} {expected : ValueKind} :
    v.satisfies expected ↔ v.StandsFor expected := by
  simp [satisfies, StandsFor, or_assoc]

/-- A value that is a number literal but not a finite one, with its template. -/
inductive NonFinite : Value → String → Prop
  | literal {n : NumberText} {x : Float} :
      n.literal = some x → ¬ Binary.isFinite x → NonFinite (.number n) n.raw

theorem nonFinite?_eq_some_iff {v : Value} {raw : String} :
    v.nonFinite? = some raw ↔ v.NonFinite raw := by
  constructor
  · intro found
    unfold nonFinite? at found
    split at found
    · rename_i raw' x linked
      rw [Option.ite_none_left_eq_some, Option.some_inj] at found
      obtain ⟨infinite, rfl⟩ := found
      exact .literal (n := ⟨raw', some x, linked⟩) rfl infinite
    · cases found
  · rintro ⟨literal, infinite⟩
    rename_i n x
    obtain ⟨raw', _, linked⟩ := n
    obtain rfl : _ = some x := literal
    exact if_neg infinite

end Value

/-- A parameter's number without a place in a document is the first among its values. -/
theorem Param.nonFinite?_eq (q : Param) : q.nonFinite? = q.contents.findSome? Value.nonFinite? := by
  cases q with
  | value v => simp [nonFinite?, contents]
  | _ => rfl

namespace Instruction

/-- A required parameter that an instruction lacks, by name.  A text that is required must not be
empty. -/
@[mk_iff lacks_iff]
inductive Lacks : Instruction → String → Prop
  | event : Lacks (.event none) "event"
  | check {c : Condition} : c.check = none → Lacks (.if_ c) "check"
  | mode {r : Repeat} : r.mode = none → Lacks (.repeat_ r) "mode"
  | target {t : Targeting} : t.kind = none → Lacks (.target t) "target"
  | functionName {f : Function} : f.name = "" → Lacks (.function f) "name"
  | called {c : Call} : c.function = "" → Lacks (.callFunction c) "function"
  | variableOp {s : VariableStep} : s.op = none → Lacks (.variable_ s) "operation"
  | variableName {s : VariableStep} : s.name = "" → Lacks (.variable_ s) "name"
  | mathOp {m : MathStep} : m.op = none → Lacks (.math m) "operation"
  | mathLeft {m : MathStep} : m.left = none → Lacks (.math m) "left"
  | mathResult {m : MathStep} : m.result = "" → Lacks (.math m) "result"
  | textOp {t : TextStep} : t.op = none → Lacks (.text t) "operation"
  | textInput {t : TextStep} : t.input = none → Lacks (.text t) "input"
  | textResult {t : TextStep} : t.result = "" → Lacks (.text t) "result"
  | message : Lacks (.message none) "text"
  | location : Lacks (.teleport none) "location"
  | effectKind {s : Request} : s.kind = "" → Lacks (.sideEffect s) "kind"
  | ticks : Lacks (.delay none) "ticks"

/-- A value in a parameter that takes values of one kind only: the parameter, the kind and the
value. -/
@[mk_iff confines_iff]
inductive Confines : Instruction → String → ValueKind → Value → Prop
  | count {r : Repeat} {v : Value} : r.count = some v → Confines (.repeat_ r) "count" .number v
  | radius {t : Targeting} {v : Value} : t.radius = some v → Confines (.target t) "radius" .number v
  | targetName {t : Targeting} {v : Value} : t.name = some v → Confines (.target t) "name" .text v
  | mathLeft {m : MathStep} {v : Value} : m.left = some v → Confines (.math m) "left" .number v
  | mathRight {m : MathStep} {v : Value} : m.right = some v → Confines (.math m) "right" .number v
  | input {t : TextStep} {v : Value} : t.input = some v → Confines (.text t) "input" .text v
  | argument {t : TextStep} {v : Value} :
      t.argument = some v → Confines (.text t) "argument" .text v
  | replacement {t : TextStep} {v : Value} :
      t.replacement = some v → Confines (.text t) "replacement" .text v
  | message {v : Value} : Confines (.message (some v)) "text" .text v
  | location {v : Value} : Confines (.teleport (some v)) "location" .location v
  | ticks {v : Value} : Confines (.delay (some v)) "ticks" .number v

/-- A value anywhere in an instruction, an operand of a condition and an argument of a request
included, with the parameter it is in. -/
@[mk_iff holds_iff_field]
inductive Holds : Instruction → String → Value → Prop
  | left {c : Condition} {v : Value} : c.left = some v → Holds (.if_ c) "left" v
  | right {c : Condition} {v : Value} : c.right = some v → Holds (.if_ c) "right" v
  | count {r : Repeat} {v : Value} : r.count = some v → Holds (.repeat_ r) "count" v
  | list {r : Repeat} {v : Value} : r.list = some v → Holds (.repeat_ r) "list" v
  | condition {r : Repeat} {c : Condition} {v : Value} :
      r.condition = some c → c.left = some v ∨ c.right = some v → Holds (.repeat_ r) "condition" v
  | radius {t : Targeting} {v : Value} : t.radius = some v → Holds (.target t) "radius" v
  | targetName {t : Targeting} {v : Value} : t.name = some v → Holds (.target t) "name" v
  | value {s : VariableStep} {v : Value} : s.value = some v → Holds (.variable_ s) "value" v
  | extra {s : VariableStep} {v : Value} : s.extra = some v → Holds (.variable_ s) "extra" v
  | mathLeft {m : MathStep} {v : Value} : m.left = some v → Holds (.math m) "left" v
  | mathRight {m : MathStep} {v : Value} : m.right = some v → Holds (.math m) "right" v
  | input {t : TextStep} {v : Value} : t.input = some v → Holds (.text t) "input" v
  | argument {t : TextStep} {v : Value} : t.argument = some v → Holds (.text t) "argument" v
  | replacement {t : TextStep} {v : Value} :
      t.replacement = some v → Holds (.text t) "replacement" v
  | message {v : Value} : Holds (.message (some v)) "text" v
  | location {v : Value} : Holds (.teleport (some v)) "location" v
  | argumentOf {s : Request} {name : String} {v : Value} :
      s.arguments.get? name = some v → Holds (.sideEffect s) "arguments" v
  | ticks {v : Value} : Holds (.delay (some v)) "ticks" v
  | returned {v : Value} : Holds (.return_ (some v)) "value" v

/-- A requirement that one parameter makes on another and that is not met, as it is reported. -/
inductive Unmet : Instruction → String → Prop
  | left {c : Condition} {k : Check} : c.check = some k → k.readsLeft → c.left = none →
      Unmet (.if_ c) (Named.name k ++ " needs a left operand")
  | right {c : Condition} {k : Check} : c.check = some k → k.readsRight → c.right = none →
      Unmet (.if_ c) (Named.name k ++ " needs a right operand")
  | interval {r : Repeat} : r.interval = 0 →
      Unmet (.repeat_ r) "interval must be at least one tick"
  | count {r : Repeat} : r.mode = some .times → r.count = none →
      Unmet (.repeat_ r) "TIMES needs a count"
  | list {r : Repeat} : r.mode = some .forEach → r.list = none →
      Unmet (.repeat_ r) "FOR_EACH needs a list"
  | condition {r : Repeat} {m : LoopMode} : r.mode = some m → m = .while_ ∨ m = .until_ →
      r.condition = none → Unmet (.repeat_ r) (Named.name m ++ " needs a condition")
  | check {r : Repeat} {m : LoopMode} {c : Condition} : r.mode = some m → m = .while_ ∨ m = .until_ →
      r.condition = some c → c.check = none →
      Unmet (.repeat_ r) (Named.name m ++ " condition has no check")
  | targetName {t : Targeting} {k : TargetKind} : t.kind = some k → k.usesName → t.name = none →
      Unmet (.target t) (Named.name k ++ " needs a name")
  | functionName {f : Function} : Text.isBlankText f.name →
      Unmet (.function f) "function name is empty"
  | declared {f : Function} {n : String} : List.Duplicate n f.parameters →
      Unmet (.function f) ("parameter '" ++ n ++ "' is declared twice")
  | value {s : VariableStep} {op : VariableOp} : s.op = some op → op.needsValue → s.value = none →
      Unmet (.variable_ s) (Named.name op ++ " needs a value")
  | bound {s : VariableStep} : s.op = some .randomNumber → s.extra = none →
      Unmet (.variable_ s) (Named.name VariableOp.randomNumber ++ " needs an upper bound")
  | operand {m : MathStep} {op : MathOp} : m.op = some op → op.isBinary → m.right = none →
      Unmet (.math m) (Named.name op ++ " needs a right operand")
  | argument {t : TextStep} {op : TextOp} : t.op = some op → op.isBinary → op ≠ .concat →
      t.argument = none → Unmet (.text t) (Named.name op ++ " needs an argument")

/-! ## The schema asks for what an instruction needs -/

section Schema

attribute [local simp] blockType BlockType.schema Condition.schema toParams ParamSpec.needed
  ParamSpec.optional Params.putCondition Table.get?_insert

/-- What an instruction lacks is what its type's schema requires and its parameters do not have. -/
theorem lacks_iff_schema {i : Instruction} {name : String} :
    i.Lacks name ↔ ∃ spec ∈ i.blockType.schema,
      spec.required ∧ i.toParams.get? spec.name = none ∧ name = spec.name := by
  rw [lacks_iff]
  cases i with
  | repeat_ r =>
      obtain ⟨mode, count, list, condition, isAsync, interval, maxIterations⟩ := r
      cases condition <;> cases maxIterations <;> simp
  | callFunction c =>
      obtain ⟨function, arguments, result⟩ := c
      cases result <;> simp
  | _ => simp

/-- A value that is confined to a kind is one whose parameter the schema gives that kind. -/
theorem confines_iff_schema {i : Instruction} {name : String} {kind : ValueKind} {v : Value} :
    i.Confines name kind v ↔ ∃ spec ∈ i.blockType.schema,
      i.toParams.get? spec.name = some (.value v) ∧ name = spec.name ∧
        .value (some kind) = spec.shape := by
  rw [confines_iff]
  cases i with
  | repeat_ r =>
      obtain ⟨mode, count, list, condition, isAsync, interval, maxIterations⟩ := r
      cases condition <;> cases maxIterations <;> simp
  | callFunction c =>
      obtain ⟨function, arguments, result⟩ := c
      cases result <;> simp
  | _ => simp

/-- The values of an instruction are those in the parameters of its type's schema. -/
theorem holds_iff_schema {i : Instruction} {name : String} {v : Value} :
    i.Holds name v ↔ ∃ spec ∈ i.blockType.schema, ∃ q,
      i.toParams.get? spec.name = some q ∧ v ∈ q.contents ∧ name = spec.name := by
  rw [holds_iff_field]
  cases i with
  | repeat_ r =>
      obtain ⟨mode, count, list, condition, isAsync, interval, maxIterations⟩ := r
      cases condition <;> cases maxIterations <;> simp [Param.contents]
  | callFunction c =>
      obtain ⟨function, arguments, result⟩ := c
      cases result <;> simp [Param.contents]
  | sideEffect s =>
      have vacant : s.arguments.isEmpty = false ∧ v ∈ s.arguments.values ↔ v ∈ s.arguments.values := by
        refine and_iff_right_of_imp fun inside => ?_
        rw [← Bool.not_eq_true]
        intro empty
        have none : s.arguments.values = [] := by
          rw [Table.values, List.isEmpty_iff.mp empty, List.map_nil]
        rw [none] at inside
        cases inside
      suffices v ∈ s.arguments.values ∧ name = "arguments" ↔
          (s.arguments.isEmpty = false ∧ v ∈ s.arguments.values) ∧ name = "arguments" by
        simpa [Param.contents, Table.mem_values_iff, and_assoc] using this
      rw [vacant]
  | _ => simp [Param.contents]

/-- An instruction has no parameter that its type's schema does not list. -/
theorem get?_toParams_of_unlisted {i : Instruction} {name : String}
    (unlisted : ∀ spec ∈ i.blockType.schema, spec.name ≠ name) : i.toParams.get? name = none := by
  cases i with
  | repeat_ r =>
      obtain ⟨mode, count, list, condition, isAsync, interval, maxIterations⟩ := r
      simp at unlisted
      cases condition <;> cases maxIterations <;> simp [unlisted]
  | callFunction c =>
      obtain ⟨function, arguments, result⟩ := c
      simp at unlisted
      cases result <;> simp [unlisted]
  | _ =>
      simp at unlisted
      simp [unlisted]

end Schema

/-- A value of an instruction is one in a parameter that is set. -/
theorem holds_iff {i : Instruction} {name : String} {v : Value} :
    i.Holds name v ↔ ∃ q, i.toParams.get? name = some q ∧ v ∈ q.contents := by
  rw [holds_iff_schema]
  constructor
  · rintro ⟨spec, -, q, here, inside, rfl⟩
    exact ⟨q, here, inside⟩
  · rintro ⟨q, here, inside⟩
    by_contra unlisted
    push Not at unlisted
    rw [get?_toParams_of_unlisted] at here
    · cases here
    · rintro spec listed rfl
      exact unlisted spec listed q here inside rfl

/-! ## Requirements among parameters -/

/-- No name is reported exactly if none was met before and none is met twice. -/
theorem firstRepeated_eq_none_iff {seen l : List String} :
    firstRepeated seen l = none ↔ (∀ n ∈ l, n ∉ seen) ∧ l.Nodup := by
  induction l generalizing seen with
  | nil => simp [firstRepeated]
  | cons n rest ih =>
      rw [firstRepeated]
      by_cases met : n ∈ seen
      · simp [met]
      · rw [if_neg (by simpa using met), ih, List.nodup_cons]
        grind

/-- The name that is reported was met before or is met twice. -/
theorem repeated_of_firstRepeated {seen l : List String} {n : String}
    (found : firstRepeated seen l = some n) : (n ∈ seen ∧ n ∈ l) ∨ List.Duplicate n l := by
  induction l generalizing seen with
  | nil => cases found
  | cons m rest ih =>
      rw [firstRepeated] at found
      by_cases met : m ∈ seen
      · rw [if_pos (List.contains_iff_mem.mpr met), Option.some_inj] at found
        exact .inl ⟨found ▸ met, found ▸ List.mem_cons_self ..⟩
      · rw [if_neg (by simpa using met)] at found
        rcases ih found with ⟨earlier, inside⟩ | twice
        · rcases List.mem_cons.mp earlier with rfl | earlier
          · exact .inr (.cons_mem inside)
          · exact .inl ⟨earlier, List.mem_cons_of_mem _ inside⟩
        · exact .inr (.cons_duplicate twice)

/-- What is reported of a loop is an unmet requirement. -/
theorem unmet_of_repeat_conflict? {r : Repeat} {reason : String}
    (found : (repeat_ r).conflict? = some reason) : (repeat_ r).Unmet reason := by
  -- a loop that asks a question, whichever of the two
  have unasked {m : LoopMode} (mode : r.mode = some m) (asks : m = .while_ ∨ m = .until_)
      (absent : r.condition = none)
      (found : some ((r.mode.map Named.name).getD "" ++ " needs a condition") = some reason) :
      (repeat_ r).Unmet reason := by
    rw [mode] at found
    exact Option.some.inj found ▸ .condition mode asks absent
  have unchecked {m : LoopMode} {c : Condition} (mode : r.mode = some m)
      (asks : m = .while_ ∨ m = .until_) (condition : r.condition = some c)
      (found : (if c.check.isNone then
        some ((r.mode.map Named.name).getD "" ++ " condition has no check") else none) =
          some reason) : (repeat_ r).Unmet reason := by
    rw [mode] at found
    split_ifs at found with absent
    exact Option.some.inj found ▸
      .check mode asks condition (Option.isNone_iff_eq_none.mp absent)
  rw [conflict?] at found
  by_cases zero : r.interval = 0
  · rw [if_pos zero] at found
    exact Option.some.inj found ▸ .interval zero
  rw [if_neg zero] at found
  split at found
  · rename_i mode
    split_ifs at found with absent
    exact Option.some.inj found ▸ .count mode (Option.isNone_iff_eq_none.mp absent)
  · rename_i mode
    split_ifs at found with absent
    exact Option.some.inj found ▸ .list mode (Option.isNone_iff_eq_none.mp absent)
  · rename_i mode
    split at found
    · next absent => exact unasked mode (.inl rfl) absent found
    · next c condition => exact unchecked mode (.inl rfl) condition found
  · rename_i mode
    split at found
    · next absent => exact unasked mode (.inr rfl) absent found
    · next c condition => exact unchecked mode (.inr rfl) condition found
  · cases found

/-- **What is reported of parameters that depend on one another is an unmet requirement.** -/
theorem unmet_of_conflict? {i : Instruction} {reason : String} (found : i.conflict? = some reason) :
    i.Unmet reason := by
  cases i with
  | if_ c =>
      rw [conflict?] at found
      split at found
      · cases found
      rename_i k check
      split_ifs at found with left right
      · rw [Bool.and_eq_true, Option.isNone_iff_eq_none] at left
        exact Option.some.inj found ▸ .left check left.1 left.2
      · rw [Bool.and_eq_true, Option.isNone_iff_eq_none] at right
        exact Option.some.inj found ▸ .right check right.1 right.2
  | repeat_ r => exact unmet_of_repeat_conflict? found
  | target t =>
      rw [conflict?] at found
      split at found
      · rename_i k kind
        split_ifs at found with absent
        rw [Bool.and_eq_true, Option.isNone_iff_eq_none] at absent
        exact Option.some.inj found ▸ .targetName kind absent.1 absent.2
      · cases found
  | function f =>
      rw [conflict?] at found
      split_ifs at found with blank
      · exact Option.some.inj found ▸ .functionName blank
      · obtain ⟨n, twice, rfl⟩ := Option.map_eq_some_iff.mp found
        rcases repeated_of_firstRepeated twice with ⟨earlier, -⟩ | twice
        · cases earlier
        · exact .declared twice
  | variable_ s =>
      rw [conflict?] at found
      split at found
      · rename_i op known
        split_ifs at found with value bound
        · rw [Bool.and_eq_true, Option.isNone_iff_eq_none] at value
          exact Option.some.inj found ▸ .value known value.1 value.2
        · rw [Bool.and_eq_true, Option.isNone_iff_eq_none, decide_eq_true_eq] at bound
          obtain ⟨rfl, absent⟩ := bound
          exact Option.some.inj found ▸ .bound known absent
      · cases found
  | math m =>
      rw [conflict?] at found
      split at found
      · rename_i op known
        split_ifs at found with absent
        rw [Bool.and_eq_true, Option.isNone_iff_eq_none] at absent
        exact Option.some.inj found ▸ .operand known absent.1 absent.2
      · cases found
  | text t =>
      rw [conflict?] at found
      split at found
      · rename_i op known
        split_ifs at found with absent
        rw [Bool.and_eq_true, Bool.and_eq_true, decide_eq_true_eq, Option.isNone_iff_eq_none] at absent
        exact Option.some.inj found ▸ .argument known absent.1.1 absent.1.2 absent.2
      · cases found
  | _ => cases found

theorem conflict?_ne_none {i : Instruction} {reason : String} (unmet : i.Unmet reason) :
    i.conflict? ≠ none := by
  cases unmet with
  | left check reads absent => simp [conflict?, check, reads, absent]
  | right check reads absent =>
      simp only [conflict?, check, reads, absent, Option.isNone_none, Bool.and_self, if_true]
      split_ifs <;> simp
  | interval zero => simp [conflict?, zero]
  | @count r mode absent => by_cases zero : r.interval = 0 <;> simp [conflict?, zero, mode, absent]
  | @list r mode absent => by_cases zero : r.interval = 0 <;> simp [conflict?, zero, mode, absent]
  | @condition r m mode asks absent =>
      by_cases zero : r.interval = 0
      · simp [conflict?, zero]
      · rcases asks with rfl | rfl <;> simp [conflict?, zero, mode, absent]
  | @check r m c mode asks condition absent =>
      by_cases zero : r.interval = 0
      · simp [conflict?, zero]
      · rcases asks with rfl | rfl <;> simp [conflict?, zero, mode, condition, absent]
  | targetName kind uses absent => simp [conflict?, kind, uses, absent]
  | functionName blank => simp [conflict?, blank]
  | declared twice =>
      rename_i f n
      have found : firstRepeated [] f.parameters ≠ none := by
        intro none
        exact List.nodup_iff_forall_not_duplicate.mp (firstRepeated_eq_none_iff.mp none).2 n twice
      rw [conflict?]
      split_ifs <;> simp [found]
  | value op needs absent => simp [conflict?, op, needs, absent]
  | bound op absent =>
      rw [conflict?, op]
      dsimp only
      split_ifs with value bound
      · simp
      · simp
      · simp [absent] at bound
  | operand op needs absent => simp [conflict?, op, needs, absent]
  | argument op needs joins absent => simp [conflict?, op, needs, joins, absent]

/-- Nothing is reported exactly if every requirement is met. -/
theorem conflict?_eq_none_iff {i : Instruction} : i.conflict? = none ↔ ∀ reason, ¬ i.Unmet reason := by
  constructor
  · intro none reason unmet
    exact conflict?_ne_none unmet none
  · intro met
    by_contra found
    obtain ⟨reason, found⟩ := Option.ne_none_iff_exists'.mp found
    exact met reason (unmet_of_conflict? found)

end Instruction

end Blockwork
