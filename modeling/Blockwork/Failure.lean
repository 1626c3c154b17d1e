import Blockwork.Datum
import Blockwork.Kinds

/-!
# Why a block failed

Failures are causes, grouped by what kind of mistake they are; the wording is in one place,
`Failure.message`.  A failure ends the current run of a line and nothing else.

One of them is no error.  A number can be clamped only between bounds that are in order, and where they are
not, the program panics (`Failure.panic`).  No block yields it as its error: it breaks off whatever is
running, and what would follow has no meaning.
-/

namespace Blockwork

/-- Something is missing from a block. -/
inductive Absence where
  /-- An operand. -/
  | operand (what : String)
  /-- The check of a condition. -/
  | check
  /-- The operation of a block. -/
  | operation (block : String)
  /-- The name of a variable. -/
  | variableName
  /-- The variable for a result. -/
  | result (block : String)
  /-- The kind of a side effect. -/
  | effectKind
  /-- The kind of a target. -/
  | targetKind
  /-- The mode of a loop. -/
  | loopMode
  /-- The condition of a loop. -/
  | loopCondition (mode : LoopMode)

/-- A calculation has no result. -/
inductive Undefined where
  /-- Division by zero. -/
  | division
  /-- Remainder of a division by zero. -/
  | modulo
  /-- A negative number to a power that is not whole. -/
  | power (base exponent : Float)
  /-- Square root of a negative number. -/
  | squareRoot (x : Float)
  /-- A random number from a range without end. -/
  | randomRange (a b : Float)
  /-- A result that is not a finite number. -/
  | notFinite (op : MathOp)

/-- A cap was reached. -/
inductive Excess where
  /-- Calls inside one another. -/
  | callDepth (limit : Nat) (function : String)
  /-- Iterations of a loop. -/
  | iterations (mode : LoopMode) (cap : Nat)

/-- Something that is referred to does not exist. -/
inductive Unknown where
  /-- A function. -/
  | function (name : String)
  /-- A variable to copy. -/
  | variable_ (name : String)
  /-- An element of an empty list. -/
  | choice
  /-- A property of actors. -/
  | actorInfo (key : String)
  /-- An actor who is online among the subject. -/
  | onlineTarget (what : String)
  /-- An actor among the subject of a condition. -/
  | conditionTarget
  /-- An actor. -/
  | actor (id : ActorId)
  /-- An entity. -/
  | entity (id : EntityId)
  /-- A value where one is needed. -/
  | unset (what : String)

/-- Something is not possible in the present state. -/
inductive Conflict where
  /-- The name of a function denotes something else. -/
  | notFunction (name : String)
  /-- A call with the wrong number of arguments. -/
  | argumentCount (function : String) (expected given : Nat)
  /-- A second asynchronous loop. -/
  | loopRunning

/-- The world refused. -/
inductive Refusal where
  /-- An actor is not online. -/
  | actorOffline (id : ActorId)

/-- Why a block failed. -/
inductive Failure where
  /-- A block is incomplete. -/
  | absent (what : Absence)
  /-- An operand has the wrong type. -/
  | wrongType (what wanted got : String)
  /-- A calculation has no result. -/
  | undefined (why : Undefined)
  /-- A cap was reached. -/
  | excess (what : Excess)
  /-- Something does not exist. -/
  | unknown (what : Unknown)
  /-- Something is not possible now. -/
  | conflict (why : Conflict)
  /-- A side effect was refused. -/
  | effect (kind reason : String)
  /-- The world refused. -/
  | world (why : Refusal)
  /-- No error, but a panic: the bounds of a clamp are not in order. -/
  | panic

namespace Absence

/-- The text of what is missing. -/
def message : Absence → String
  | .operand what => "missing " ++ what
  | .check => "condition has no check"
  | .operation block => block ++ " block has no operation"
  | .variableName => "variable name is empty"
  | .result block => block ++ " block has no result variable"
  | .effectKind => "side effect has no kind"
  | .targetKind => "target block has no kind"
  | .loopMode => "loop has no mode"
  | .loopCondition mode => Named.name mode ++ " loop has no condition"

end Absence

namespace Undefined

/-- The text of an undefined calculation. -/
def message : Undefined → String
  | .division => "division by zero"
  | .modulo => "modulo by zero"
  | .power base exponent =>
    "cannot raise negative " ++ Decimal.plain base ++ " to non-integer power " ++
      Decimal.plain exponent
  | .squareRoot x => "square root of negative number " ++ Decimal.plain x
  | .randomRange a b =>
    "cannot pick a random number between " ++ Decimal.plain a ++ " and " ++ Decimal.plain b
  | .notFinite op => Named.name op ++ " produced a non-finite result"

end Undefined

namespace Excess

/-- The text of a cap that was reached. -/
def message : Excess → String
  | .callDepth limit function =>
    "call depth limit of " ++ Text.natural limit ++ " reached calling '" ++ function ++ "'"
  | .iterations mode cap =>
    Named.name mode ++ " loop reached " ++ Text.natural cap ++ " iterations"

end Excess

namespace Unknown

/-- The text of what does not exist. -/
def message : Unknown → String
  | .function name => "unknown function '" ++ name ++ "'"
  | .variable_ name => "variable '" ++ name ++ "' is not set"
  | .choice => "cannot choose from an empty list"
  | .actorInfo key => "unknown actor info '" ++ key ++ "'"
  | .onlineTarget what => what ++ " needs an online actor target"
  | .conditionTarget => "condition needs an actor target"
  | .actor id => "actor " ++ id.text ++ " is not online"
  | .entity id => "entity " ++ Text.natural id ++ " is gone"
  | .unset what => what ++ " is not set"

end Unknown

namespace Conflict

/-- The text of what is not possible. -/
def message : Conflict → String
  | .notFunction name => "'" ++ name ++ "' is not a function"
  | .argumentCount function expected given =>
    "function '" ++ function ++ "' takes " ++ Text.natural expected ++ " argument(s), got " ++
      Text.natural given
  | .loopRunning => "loop already running for this actor"

end Conflict

/-- The text of a refusal. -/
def Refusal.message : Refusal → String
  | .actorOffline id => "actor " ++ id.text ++ " is not online"

namespace Failure

/-- An operand is missing. -/
def missing (what : String) : Failure := .absent (.operand what)

/-- The text of a failure; of a panic, what was asserted. -/
def message : Failure → String
  | .absent what => "parse error: " ++ what.message
  | .wrongType what wanted got =>
    "type error: " ++ what ++ " must be " ++ wanted ++ ", got '" ++ got ++ "'"
  | .undefined why => "arithmetic error: " ++ why.message
  | .excess what => "limit exceeded: " ++ what.message
  | .unknown what => "not found: " ++ what.message
  | .conflict why => why.message
  | .effect kind reason => kind ++ " failed: " ++ reason
  | .world why => "host error: " ++ why.message
  | .panic => "min > max, or either was NaN"

end Failure

/-- The result of something that can fail. -/
abbrev Attempt := Except Failure

/-- How a block ended. -/
inductive Outcome where
  /-- Go on with the next block. -/
  | success
  /-- Give up the line. -/
  | error (e : Failure)
  /-- Leave the innermost loop. -/
  | break_
  /-- Go on with the next iteration. -/
  | continue_
  /-- Leave the function, possibly with a value. -/
  | return_ (value : Option Datum)

namespace Outcome

/-- Whether to go on with the next block. -/
def isSuccess : Outcome → Bool
  | .success => true
  | _ => false

/-- One word for the log. -/
def label : Outcome → String
  | .success => "success"
  | .error _ => "error"
  | .break_ => "break"
  | .continue_ => "continue"
  | .return_ _ => "return"

/-- The outcome at the top of a line: only failures are left. -/
def settled : Outcome → Outcome
  | .error e => .error e
  | _ => .success

end Outcome

end Blockwork
