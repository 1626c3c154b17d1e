import Blockwork.Block

/-!
# Parameters and their schemas

Every block type lists its parameters once: the name, the shape and whether it must be present.  The
list directs how a document is read and what validation asks for.  Instructions and documents meet
in `Params`, a table from names to values of one of eight shapes: `Instruction.toParams` flattens an
instruction and `Instruction.ofParams` builds one, leaving unset what is missing, misshapen or
unknown.
-/

namespace Blockwork

/-- The shape a parameter is expected to have. -/
inductive Shape where
  /-- A value, possibly of one kind only. -/
  | value (kind : Option ValueKind)
  /-- One of a list of names. -/
  | name (names : List String)
  /-- A truth value. -/
  | bool
  /-- A whole number. -/
  | integer
  /-- Plain text. -/
  | text
  /-- A list of names. -/
  | names
  /-- A nested condition. -/
  | condition
  /-- Named values. -/
  | values

/-- A parameter of a block type. -/
structure ParamSpec where
  /-- Its name. -/
  name : String
  /-- Its shape. -/
  shape : Shape
  /-- Whether it must be present. -/
  required : Bool

namespace ParamSpec

/-- A parameter that must be present. -/
def needed (name : String) (shape : Shape) : ParamSpec := ⟨name, shape, true⟩

/-- A parameter that may be left out. -/
def optional (name : String) (shape : Shape) : ParamSpec := ⟨name, shape, false⟩

end ParamSpec

/-- The names of a vocabulary. -/
def namesOf (α : Type) [Named α] : List String := (Named.all : List α).map Named.name

open ParamSpec in
/-- The parameters of a condition. -/
def Condition.schema : List ParamSpec :=
  [needed "check" (.name (namesOf Check)), optional "left" (.value none),
   optional "right" (.value none), optional "invert" .bool]

namespace BlockType

open ParamSpec in
/-- The parameters of a block type. -/
def schema : BlockType → List ParamSpec
  | .event => [needed "event" (.name (namesOf EventKind))]
  | .if_ => Condition.schema
  | .repeat_ =>
    [needed "mode" (.name (namesOf LoopMode)), optional "count" (.value (some .number)),
     optional "list" (.value none), optional "condition" .condition, optional "async" .bool,
     optional "interval" .integer, optional "max_iterations" .integer]
  | .target =>
    [needed "target" (.name (namesOf TargetKind)), optional "radius" (.value (some .number)),
     optional "name" (.value (some .text))]
  | .function => [needed "name" .text, optional "parameters" .names]
  | .callFunction => [needed "function" .text, optional "arguments" .text, optional "result" .text]
  | .variable_ =>
    [needed "operation" (.name (namesOf VariableOp)), needed "name" .text,
     optional "value" (.value none), optional "extra" (.value none)]
  | .math =>
    [needed "operation" (.name (namesOf MathOp)), needed "left" (.value (some .number)),
     optional "right" (.value (some .number)), needed "result" .text]
  | .text =>
    [needed "operation" (.name (namesOf TextOp)), needed "input" (.value (some .text)),
     optional "argument" (.value (some .text)), optional "replacement" (.value (some .text)),
     needed "result" .text]
  | .message => [needed "text" (.value (some .text))]
  | .teleport => [needed "location" (.value (some .location))]
  | .sideEffect => [needed "kind" .text, optional "arguments" .values]
  | .delay => [needed "ticks" (.value (some .number))]
  | .return_ => [optional "value" (.value none)]
  | .else_ | .stopLoop | .break_ | .continue_ => []

/-- One parameter of a block type. -/
def param? (t : BlockType) (name : String) : Option ParamSpec :=
  t.schema.find? fun spec => spec.name == name

end BlockType

/-- A parameter. -/
inductive Param where
  /-- A value. -/
  | value (v : Value)
  /-- A name from a vocabulary, known or not. -/
  | name (s : String)
  /-- A truth value. -/
  | bool (b : Bool)
  /-- A whole number. -/
  | integer (n : Int)
  /-- Plain text. -/
  | text (s : String)
  /-- A list of names. -/
  | names (l : List String)
  /-- A nested condition. -/
  | condition (c : Condition)
  /-- Named values. -/
  | values (t : Table String Value)
deriving BEq, Inhabited

/-- Parameters by name. -/
abbrev Params := Table String Param

namespace Params

/-- Adds a value that is set. -/
def putValue (p : Params) (name : String) : Option Value → Params
  | some v => p.insert name (.value v)
  | none => p

/-- Adds a name that is set. -/
def putName {α : Type} [Named α] (p : Params) (name : String) : Option α → Params
  | some a => p.insert name (.name (Named.name a))
  | none => p

/-- Adds a text that is not empty. -/
def putText (p : Params) (name s : String) : Params :=
  if s.isEmpty then p else p.insert name (.text s)

/-- Adds the fields of a condition. -/
def putCondition (p : Params) (c : Condition) : Params :=
  let p := p.putName "check" c.check
  let p := p.putValue "left" c.left
  let p := p.putValue "right" c.right
  if c.invert then p.insert "invert" (.bool true) else p

/-- A value.  Text and names stand for text values and whole numbers for number values. -/
def value? (p : Params) (name : String) : Option Value :=
  match p.get? name with
  | some (.value v) => some v
  | some (.text s) | some (.name s) => some (.text s)
  | some (.integer n) => some (.ofFloat (Binary.ofInt n))
  | _ => none

/-- A member of a vocabulary; a name that is not known counts as missing. -/
def named? {α : Type} [Named α] (p : Params) (name : String) : Option α :=
  match p.get? name with
  | some (.name s) => Named.ofName? s
  | _ => none

/-- Whether a truth value is set. -/
def isSet (p : Params) (name : String) : Bool :=
  match p.get? name with
  | some (.bool b) => b
  | _ => false

/-- A whole number. -/
def integer? (p : Params) (name : String) : Option Int :=
  match p.get? name with
  | some (.integer n) => some n
  | _ => none

/-- A whole number of thirty-two bits without sign. -/
def word32? (p : Params) (name : String) : Option UInt32 :=
  match p.integer? name with
  | some n => if 0 ≤ n ∧ n.toNat < Nat.pow 2 32 then some n.toNat.toUInt32 else none
  | none => none

/-- A text, empty when missing. -/
def text (p : Params) (name : String) : String :=
  match p.get? name with
  | some (.text s) | some (.name s) => s
  | _ => ""

/-- A nested condition. -/
def condition? (p : Params) (name : String) : Option Condition :=
  match p.get? name with
  | some (.condition c) => some c
  | _ => none

/-- A list of names, empty when missing. -/
def names (p : Params) (name : String) : List String :=
  match p.get? name with
  | some (.names l) => l
  | _ => []

/-- Named values, none when missing. -/
def values (p : Params) (name : String) : Table String Value :=
  match p.get? name with
  | some (.values t) => t
  | _ => {}

/-- A condition from its fields. -/
def toCondition (p : Params) : Condition :=
  { check := p.named? "check"
    left := p.value? "left"
    right := p.value? "right"
    invert := p.isSet "invert" }

end Params

namespace Instruction

/-- The parameters that are set, by name. -/
def toParams (i : Instruction) : Params :=
  let p : Params := {}
  match i with
  | .event kind => p.putName "event" kind
  | .if_ c => p.putCondition c
  | .repeat_ r =>
    let p := p.putName "mode" r.mode
    let p := p.putValue "count" r.count
    let p := p.putValue "list" r.list
    let p := match r.condition with
      | some c => p.insert "condition" (.condition c)
      | none => p
    let p := if r.isAsync then p.insert "async" (.bool true) else p
    let p := if r.interval = 1 then p else p.insert "interval" (.integer r.interval.toNat)
    match r.maxIterations with
    | some n => p.insert "max_iterations" (.integer n.toNat)
    | none => p
  | .target t => ((p.putName "target" t.kind).putValue "radius" t.radius).putValue "name" t.name
  | .function f =>
    let p := p.putText "name" f.name
    if f.parameters.isEmpty then p else p.insert "parameters" (.names f.parameters)
  | .callFunction c =>
    let p := (p.putText "function" c.function).putText "arguments" c.arguments
    match c.result with
    | some r => p.putText "result" r
    | none => p
  | .variable_ v =>
    let p := (p.putName "operation" v.op).putText "name" v.name
    (p.putValue "value" v.value).putValue "extra" v.extra
  | .math m =>
    let p := (p.putName "operation" m.op).putValue "left" m.left
    (p.putValue "right" m.right).putText "result" m.result
  | .text t =>
    let p := (p.putName "operation" t.op).putValue "input" t.input
    let p := (p.putValue "argument" t.argument).putValue "replacement" t.replacement
    p.putText "result" t.result
  | .message shown => p.putValue "text" shown
  | .teleport location => p.putValue "location" location
  | .sideEffect s =>
    let p := p.putText "kind" s.kind
    if s.arguments.isEmpty then p else p.insert "arguments" (.values s.arguments)
  | .delay ticks => p.putValue "ticks" ticks
  | .return_ value => p.putValue "value" value
  | .else_ | .stopLoop | .break_ | .continue_ => p

/-- The instruction of a type with the given parameters. -/
def ofParams (t : BlockType) (p : Params) : Instruction :=
  match t with
  | .event => .event (p.named? "event")
  | .if_ => .if_ p.toCondition
  | .else_ => .else_
  | .repeat_ =>
    .repeat_ {
      mode := p.named? "mode"
      count := p.value? "count"
      list := p.value? "list"
      condition := p.condition? "condition"
      isAsync := p.isSet "async"
      interval := max ((p.word32? "interval").getD 1) 1
      maxIterations := p.word32? "max_iterations" }
  | .target =>
    .target { kind := p.named? "target", radius := p.value? "radius", name := p.value? "name" }
  | .function => .function { name := p.text "name", parameters := p.names "parameters" }
  | .callFunction =>
    .callFunction {
      function := p.text "function"
      arguments := p.text "arguments"
      result := if (p.text "result").isEmpty then none else some (p.text "result") }
  | .variable_ =>
    .variable_ {
      op := p.named? "operation"
      name := p.text "name"
      value := p.value? "value"
      extra := p.value? "extra" }
  | .math =>
    .math {
      op := p.named? "operation"
      left := p.value? "left"
      right := p.value? "right"
      result := p.text "result" }
  | .text =>
    .text {
      op := p.named? "operation"
      input := p.value? "input"
      argument := p.value? "argument"
      replacement := p.value? "replacement"
      result := p.text "result" }
  | .message => .message (p.value? "text")
  | .teleport => .teleport (p.value? "location")
  | .sideEffect => .sideEffect { kind := p.text "kind", arguments := p.values "arguments" }
  | .delay => .delay (p.value? "ticks")
  | .stopLoop => .stopLoop
  | .break_ => .break_
  | .continue_ => .continue_
  | .return_ => .return_ (p.value? "value")

end Instruction

end Blockwork
