import Blockwork.Table
import Blockwork.Uuid
import Blockwork.Value

/-!
# Blocks

A script is made of trees of blocks.  A block has an identity, an instruction and children; the
children belong to it, so a tree can neither share nor contain itself.  Parameters that a document
left out or spelled in a way nobody knows are simply unset in the instruction: validation reports
them, and so does running the block.

`Block.walk` visits a tree by a work list and needs no recursion into it; `Block.preorder` is the
order it visits in, by recursion, and `Block.find` looks for an identity in that order.
-/

namespace Blockwork

/-- Parameters of a loop. -/
structure Repeat where
  /-- How it decides whether to go on. -/
  mode : Option LoopMode := none
  /-- Number of iterations. -/
  count : Option Value := none
  /-- List to go through. -/
  list : Option Value := none
  /-- Question asked before or after each iteration. -/
  condition : Option Condition := none
  /-- Whether iterations are spread over ticks. -/
  isAsync : Bool := false
  /-- Ticks between such iterations. -/
  interval : UInt32 := 1
  /-- Cap on iterations in place of the general one. -/
  maxIterations : Option UInt32 := none
deriving BEq, Inhabited

namespace Repeat

/-- A loop of a mode with nothing else set. -/
def ofMode (mode : LoopMode) : Repeat := { mode := some mode }

/-- A loop with a count. -/
def times (count : Value) : Repeat := { ofMode .times with count := some count }

/-- A loop through a list. -/
def forEach (list : Value) : Repeat := { ofMode .forEach with list := some list }

/-- A loop with a question. -/
def withCondition (mode : LoopMode) (condition : Condition) : Repeat :=
  { ofMode mode with condition := some condition }

/-- The loop with its iterations spread over ticks. -/
def asynchronous (r : Repeat) : Repeat := { r with isAsync := true }

/-- The loop with a cap of its own. -/
def capped (r : Repeat) (cap : UInt32) : Repeat := { r with maxIterations := some cap }

end Repeat

/-- Parameters of a change of subject. -/
structure Targeting where
  /-- Whom to look for. -/
  kind : Option TargetKind := none
  /-- How far to look. -/
  radius : Option Value := none
  /-- Name of the actor or variable. -/
  name : Option Value := none
deriving BEq, Inhabited

/-- Head of a function definition. -/
structure Function where
  /-- The name it is called by. -/
  name : String := ""
  /-- The names its arguments are bound to. -/
  parameters : List String := []
deriving BEq, Inhabited

/-- Parameters of a call. -/
structure Call where
  /-- Name of the function. -/
  function : String := ""
  /-- Argument list as written. -/
  arguments : String := ""
  /-- Variable for the returned value. -/
  result : Option String := none
deriving BEq, Inhabited

/-- Parameters of a change to a variable. -/
structure VariableStep where
  /-- What to do. -/
  op : Option VariableOp := none
  /-- Name of the variable, a template. -/
  name : String := ""
  /-- First operand. -/
  value : Option Value := none
  /-- Second operand. -/
  extra : Option Value := none
deriving BEq, Inhabited

/-- Parameters of a calculation. -/
structure MathStep where
  /-- What to compute. -/
  op : Option MathOp := none
  /-- First operand. -/
  left : Option Value := none
  /-- Second operand. -/
  right : Option Value := none
  /-- Variable for the result. -/
  result : String := ""
deriving BEq, Inhabited

/-- Parameters of a text operation. -/
structure TextStep where
  /-- What to compute. -/
  op : Option TextOp := none
  /-- The text worked on. -/
  input : Option Value := none
  /-- Second operand. -/
  argument : Option Value := none
  /-- Third operand. -/
  replacement : Option Value := none
  /-- Variable for the result. -/
  result : String := ""
deriving BEq, Inhabited

/-- A request to a subsystem outside the engine. -/
structure Request where
  /-- What is requested. -/
  kind : String := ""
  /-- Named arguments. -/
  arguments : Table String Value := {}
deriving BEq, Inhabited

/-- What a block does. -/
inductive Instruction where
  /-- Names the event that starts a line. -/
  | event (kind : Option EventKind)
  /-- Runs the children if a condition holds. -/
  | if_ (condition : Condition)
  /-- Runs the children if the condition just before did not hold. -/
  | else_
  /-- Runs the children repeatedly. -/
  | repeat_ (params : Repeat)
  /-- Runs the children with another subject. -/
  | target (params : Targeting)
  /-- Defines a function whose body is the children. -/
  | function (head : Function)
  /-- Calls a function. -/
  | callFunction (call : Call)
  /-- Changes a variable. -/
  | variable_ (step : VariableStep)
  /-- Calculates. -/
  | math (step : MathStep)
  /-- Works on text. -/
  | text (step : TextStep)
  /-- Sends a message to the subject. -/
  | message (text : Option Value)
  /-- Moves the subject. -/
  | teleport (location : Option Value)
  /-- Requests a side effect. -/
  | sideEffect (request : Request)
  /-- Runs the children later. -/
  | delay (ticks : Option Value)
  /-- Stops the actor's asynchronous loop. -/
  | stopLoop
  /-- Leaves the innermost loop. -/
  | break_
  /-- Goes on with the next iteration of the innermost loop. -/
  | continue_
  /-- Leaves the function. -/
  | return_ (value : Option Value)
deriving BEq, Inhabited

/-- The type of an instruction. -/
def Instruction.blockType : Instruction → BlockType
  | .event _ => .event
  | .if_ _ => .if_
  | .else_ => .else_
  | .repeat_ _ => .repeat_
  | .target _ => .target
  | .function _ => .function
  | .callFunction _ => .callFunction
  | .variable_ _ => .variable_
  | .math _ => .math
  | .text _ => .text
  | .message _ => .message
  | .teleport _ => .teleport
  | .sideEffect _ => .sideEffect
  | .delay _ => .delay
  | .stopLoop => .stopLoop
  | .break_ => .break_
  | .continue_ => .continue_
  | .return_ _ => .return_

/-- A node of a block tree. -/
structure Block where
  /-- Its identity. -/
  id : BlockId
  /-- What it does. -/
  instruction : Instruction
  /-- The blocks inside it. -/
  children : List Block := []
deriving Inhabited

namespace Block

/-- The type of a block. -/
def blockType (b : Block) : BlockType := b.instruction.blockType

mutual

/-- Whether two trees agree in identities, instructions and shape.  Numbers are compared by value,
so a tree with a literal that is not a number does not agree with itself. -/
def agrees : Block → Block → Bool
  | ⟨i, k, cs⟩, ⟨j, l, ds⟩ => i == j && k == l && agreesAll cs ds

/-- Whether two lists of trees agree one by one. -/
def agreesAll : List Block → List Block → Bool
  | [], [] => true
  | b :: bs, c :: cs => agrees b c && agreesAll bs cs
  | _, _ => false

end

instance : BEq Block := ⟨agrees⟩

/-- The block with another child at the end. -/
def pushChild (b child : Block) : Block := { b with children := b.children ++ [child] }

/-- The block without the child at a place, if there is one. -/
def removeChild (b : Block) (index : Nat) : Block := { b with children := b.children.eraseIdx index }

mutual

/-- The blocks of a tree: a block before its children, the children from left to right. -/
def preorder : Block → List Block
  | ⟨i, k, cs⟩ => ⟨i, k, cs⟩ :: preorderAll cs

/-- The blocks of several trees, tree after tree. -/
def preorderAll : List Block → List Block
  | [] => []
  | b :: bs => preorder b ++ preorderAll bs

end

mutual

/-- How many blocks a tree has. -/
def count : Block → Nat
  | ⟨_, _, cs⟩ => 1 + countAll cs

/-- How many blocks several trees have. -/
def countAll : List Block → Nat
  | [] => 0
  | b :: bs => count b + countAll bs

end

theorem countAll_append (bs cs : List Block) : countAll (bs ++ cs) = countAll bs + countAll cs := by
  induction bs with
  | nil => simp [countAll]
  | cons b bs ih => simp [countAll, ih, Nat.add_assoc]

/-- Visits the trees of a work list: the first block is next, and its children go to the front of
the list. -/
def visit : List Block → List Block
  | [] => []
  | b :: rest => b :: visit (b.children ++ rest)
termination_by work => countAll work
decreasing_by
  obtain ⟨i, k, cs⟩ := b
  simp only [countAll_append, countAll, count]
  omega

/-- The blocks of a tree in the order in which they are visited. -/
def walk (b : Block) : List Block := visit [b]

mutual

/-- The first block with an identity, in pre-order. -/
def find (id : BlockId) : Block → Option Block
  | ⟨i, k, cs⟩ => if i = id then some ⟨i, k, cs⟩ else findAll id cs

/-- The first block with an identity in several trees. -/
def findAll (id : BlockId) : List Block → Option Block
  | [] => none
  | b :: bs =>
    match find id b with
    | some found => some found
    | none => findAll id bs

end

mutual

/-- A copy of a tree with new identities throughout. -/
def duplicate : Block → Uuid.Supply → Block × Uuid.Supply
  | ⟨_, k, cs⟩, s =>
    let (id, s) := s.take
    let (children, s) := duplicateAll cs s
    (⟨id, k, children⟩, s)

/-- Copies of several trees with new identities throughout. -/
def duplicateAll : List Block → Uuid.Supply → List Block × Uuid.Supply
  | [], s => ([], s)
  | b :: bs, s =>
    let (b, s) := duplicate b s
    let (bs, s) := duplicateAll bs s
    (b :: bs, s)

end

/-- The function heads defined in a tree, with their blocks, in pre-order. -/
def functions (b : Block) : List (Function × Block) :=
  b.walk.filterMap fun n =>
    match n.instruction with
    | .function head => some (head, n)
    | _ => none

end Block

end Blockwork
