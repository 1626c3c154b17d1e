import Blockwork.Params

/-!
# Structural validation

Validation looks at a tree of blocks without running it and reports what could not work: parameters
that are missing, of the wrong kind or without a place in a document, children where none may be,
an `ELSE` without its `IF`, an `EVENT` that does not start a line, and identities used twice.
Problems are reported in pre-order, and within a block in the order just given except that the
reuse of an identity comes first.
-/

namespace Blockwork

/-- A structural problem. -/
inductive Problem where
  /-- A required parameter is not set. -/
  | missingParameter (block : BlockId) (type : BlockType) (name : String)
  /-- A value is of a kind that its parameter does not take. -/
  | wrongValueKind (block : BlockId) (type : BlockType) (name : String)
      (expected found : ValueKind)
  /-- The parameters do not fit together. -/
  | invalidParameter (block : BlockId) (type : BlockType) (reason : String)
  /-- Children in a block that takes none. -/
  | unexpectedChildren (block : BlockId) (type : BlockType)
  /-- An `ELSE` that does not follow an `IF`. -/
  | danglingElse (block : BlockId)
  /-- An `EVENT` that is not first in a line. -/
  | misplacedEvent (block : BlockId)
  /-- An identity that was used before. -/
  | duplicateId (block : BlockId)
  /-- A function name that was defined before. -/
  | duplicateFunction (name : String)
deriving DecidableEq, Inhabited

namespace Problem

/-- A block by type and identity. -/
def blockText (type : BlockType) (block : BlockId) : String :=
  Named.name type ++ " block " ++ block.text

/-- The text of a problem. -/
def message : Problem → String
  | .missingParameter b t n => blockText t b ++ ": missing required parameter '" ++ n ++ "'"
  | .wrongValueKind b t n expected found =>
    blockText t b ++ ": parameter '" ++ n ++ "' expects " ++ Named.name expected ++ ", found " ++
      Named.name found
  | .invalidParameter b t reason => blockText t b ++ ": " ++ reason
  | .unexpectedChildren b t => blockText t b ++ " cannot have children"
  | .danglingElse b => "ELSE block " ++ b.text ++ " does not directly follow an IF block"
  | .misplacedEvent b => "EVENT block " ++ b.text ++ " must be the first block of a line"
  | .duplicateId b => "block id " ++ b.text ++ " appears more than once"
  | .duplicateFunction n => "function '" ++ n ++ "' is defined more than once"

end Problem

/-- The template of a number in a parameter that has no place in a document. -/
def Param.nonFinite? : Param → Option String
  | .value v => v.nonFinite?
  | .condition c => (c.left.toList ++ c.right.toList).findSome? Value.nonFinite?
  | .values t => t.values.findSome? Value.nonFinite?
  | _ => none

/-- The first name that occurs a second time. -/
def firstRepeated : List String → List String → Option String
  | _, [] => none
  | seen, n :: rest => if seen.contains n then some n else firstRepeated (n :: seen) rest

/-- What is wrong with parameters that depend on one another. -/
def Instruction.conflict? : Instruction → Option String
  | .if_ c =>
    match c.check with
    | none => none
    | some check =>
      if check.readsLeft && c.left.isNone then some (Named.name check ++ " needs a left operand")
      else if check.readsRight && c.right.isNone then
        some (Named.name check ++ " needs a right operand")
      else none
  | .repeat_ r =>
    if r.interval = 0 then some "interval must be at least one tick"
    else
      match r.mode with
      | some .times => if r.count.isNone then some "TIMES needs a count" else none
      | some .forEach => if r.list.isNone then some "FOR_EACH needs a list" else none
      | some .while_ | some .until_ =>
        let mode := (r.mode.map Named.name).getD ""
        match r.condition with
        | none => some (mode ++ " needs a condition")
        | some c => if c.check.isNone then some (mode ++ " condition has no check") else none
      | _ => none
  | .target t =>
    match t.kind with
    | some kind =>
      if kind.usesName && t.name.isNone then some (Named.name kind ++ " needs a name") else none
    | none => none
  | .function f =>
    if Text.isBlankText f.name then some "function name is empty"
    else (firstRepeated [] f.parameters).map fun n => "parameter '" ++ n ++ "' is declared twice"
  | .variable_ v =>
    match v.op with
    | some op =>
      if op.needsValue && v.value.isNone then some (Named.name op ++ " needs a value")
      else if op = .randomNumber && v.extra.isNone then
        some (Named.name op ++ " needs an upper bound")
      else none
    | none => none
  | .math m =>
    match m.op with
    | some op =>
      if op.isBinary && m.right.isNone then some (Named.name op ++ " needs a right operand")
      else none
    | none => none
  | .text t =>
    match t.op with
    | some op =>
      if op.isBinary && op ≠ .concat && t.argument.isNone then
        some (Named.name op ++ " needs an argument")
      else none
    | none => none
  | _ => none

namespace Block

/-- What is wrong with one parameter of the schema. -/
def specProblem? (b : Block) (params : Params) (spec : ParamSpec) : Option Problem :=
  match params.get? spec.name, spec.shape with
  | none, _ => if spec.required then some (.missingParameter b.id b.blockType spec.name) else none
  | some (.value v), .value (some expected) =>
    if v.satisfies expected then none
    else some (.wrongValueKind b.id b.blockType spec.name expected v.kind)
  | _, _ => none

/-- What is wrong with the parameters of a block. -/
def paramProblems (b : Block) : List Problem :=
  let params := b.instruction.toParams
  let shapes := b.blockType.schema.filterMap (b.specProblem? params)
  let numbers := params.toList.filterMap fun (name, p) =>
    p.nonFinite?.map fun raw =>
      .invalidParameter b.id b.blockType
        ("parameter '" ++ name ++ "' is not a finite number: " ++ raw)
  let conflict := b.instruction.conflict?.map fun reason =>
    .invalidParameter b.id b.blockType reason
  shapes ++ numbers ++ conflict.toList

/-- What is wrong with the order of siblings, given the type of the one before and whether the next
one may be an event. -/
def sequenceFrom (previous : Option BlockType) (mayBeEvent : Bool) : List Block → List Problem
  | [] => []
  | b :: rest =>
    let here :=
      match b.blockType with
      | .else_ => if previous = some .if_ then [] else [.danglingElse b.id]
      | .event => if mayBeEvent then [] else [.misplacedEvent b.id]
      | _ => []
    here ++ sequenceFrom (some b.blockType) false rest

/-- What is wrong with the order of siblings: of a line, or of the children of a block. -/
def sequenceProblems (isLine : Bool) (blocks : List Block) : List Problem :=
  sequenceFrom none isLine blocks

/-- What is wrong with a block by itself, its children's order included. -/
def ownProblems (b : Block) : List Problem :=
  let children :=
    if !b.children.isEmpty && !b.blockType.acceptsChildren then
      [Problem.unexpectedChildren b.id b.blockType]
    else []
  b.paramProblems ++ children ++ sequenceProblems false b.children

mutual

/-- The problems of a tree, and the identities seen once it has been gone through. -/
def problemsFrom (seen : List BlockId) : Block → List Problem × List BlockId
  | ⟨i, k, cs⟩ =>
    let repeated := if seen.contains i then [Problem.duplicateId i] else []
    let (inner, seen) := problemsFromAll (i :: seen) cs
    (repeated ++ ownProblems ⟨i, k, cs⟩ ++ inner, seen)

/-- The problems of several trees, one after another. -/
def problemsFromAll (seen : List BlockId) : List Block → List Problem × List BlockId
  | [] => ([], seen)
  | b :: bs =>
    let (first, seen) := problemsFrom seen b
    let (rest, seen) := problemsFromAll seen bs
    (first ++ rest, seen)

end

/-- The problems of a tree. -/
def problems (b : Block) : List Problem := (problemsFrom [] b).1

/-- The first problem of a tree, if there is one. -/
def validate (b : Block) : Except Problem Unit :=
  match b.problems with
  | [] => .ok ()
  | p :: _ => .error p

end Block

end Blockwork
