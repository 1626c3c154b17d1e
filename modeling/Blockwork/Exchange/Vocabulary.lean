import Blockwork.Exchange.Report

/-!
# Vocabularies, exchanged

Tools ask for the names of a vocabulary, or what is known about some of them.
-/

namespace Blockwork.Exchange

/-- What is known about a name, if it is one of the vocabulary. -/
def described {α : Type} [Named α] (info : α → Json) : Option α → Json
  | some a => .object [("name", .string (Named.name a)), ("info", info a)]
  | none => error "UnknownVariant"

/-- The names of a vocabulary, or what is known about the given ones. -/
def vocabulary {α : Type} [Named α] (read : String → Option α) (info : α → Json) :
    Option (List Json) → Json
  | none => list (fun a => .string (Named.name a)) (Named.all : List α)
  | some names => list (fun j => described info (j.text?.bind read)) names

/-- A vocabulary whose names are read in any case. -/
def anyCase {α : Type} [Named α] (info : α → Json) : Option (List Json) → Json :=
  vocabulary Named.ofName? info

/-- How many operands an operation has. -/
def arity (isBinary : Bool) : Json :=
  .object [("arity", .string (if isBinary then "binary" else "unary"))]

/-- The vocabularies by name. -/
def vocabularies : List (String × (Option (List Json) → Json)) :=
  [("EventKind", anyCase fun e : EventKind => .object [("role", optional .string e.actorRole)]),
   ("LoopMode", anyCase fun m : LoopMode => .object [("unbounded", .bool m.isUnbounded)]),
   ("TargetKind", anyCase fun t : TargetKind =>
      .object [("radius", .bool t.usesRadius), ("name", .bool t.usesName)]),
   ("VariableOp", anyCase fun o : VariableOp => .object [("needs_value", .bool o.needsValue)]),
   ("MathOp", anyCase fun o : MathOp => arity o.isBinary),
   ("TextOp", anyCase fun o : TextOp => arity o.isBinary),
   ("ConditionKind", anyCase fun c : Check =>
      .object [("left", .bool c.readsLeft), ("right", .bool c.readsRight)]),
   ("ValueKind", anyCase fun k : ValueKind => .string (Named.name k)),
   ("BlockType", vocabulary BlockType.ofName? fun t =>
      .object [("control_flow", .bool t.isControlFlow), ("children", .bool t.acceptsChildren)])]

end Blockwork.Exchange
