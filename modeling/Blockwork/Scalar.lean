import Blockwork.Json.Node

/-!
# Stored values

A global variable is stored as a truth value, a number, a text or a list of these.  In a document it
is plain JSON.
-/

namespace Blockwork

/-- A stored value. -/
inductive Scalar where
  /-- A truth value. -/
  | boolean (b : Bool)
  /-- A number. -/
  | number (x : Float)
  /-- A text. -/
  | text (s : String)
  /-- A list. -/
  | list (items : List Scalar)
deriving Inhabited

/-- The word for a truth value. -/
def boolText (b : Bool) : String := if b then "true" else "false"

namespace Scalar

mutual

/-- Whether two values agree, numbers by value. -/
def agrees : Scalar → Scalar → Bool
  | .boolean a, .boolean b => a == b
  | .number a, .number b => a == b
  | .text a, .text b => a == b
  | .list a, .list b => agreesAll a b
  | _, _ => false

/-- Whether two lists agree item by item. -/
def agreesAll : List Scalar → List Scalar → Bool
  | [], [] => true
  | a :: as, b :: bs => agrees a b && agreesAll as bs
  | _, _ => false

end

instance : BEq Scalar := ⟨agrees⟩

mutual

/-- The value as text; list items are divided by a comma and a blank. -/
def display : Scalar → String
  | .boolean b => boolText b
  | .number x => Decimal.display x
  | .text s => s
  | .list items => Text.join ", " (displayAll items)

/-- The items of a list as texts. -/
def displayAll : List Scalar → List String
  | [] => []
  | s :: rest => display s :: displayAll rest

end

mutual

/-- The value in a document. -/
def toJson : Scalar → Json
  | .boolean b => .bool b
  | .number x => .real x
  | .text s => .string s
  | .list items => .array (toJsonAll items)

/-- The items of a list in a document. -/
def toJsonAll : List Scalar → List Json
  | [] => []
  | s :: rest => toJson s :: toJsonAll rest

end

mutual

/-- Reads a value, looking into at most `depth` lists inside one another. -/
def read? (depth : Nat) : Json.Node → Option Scalar
  | .bool b => some (.boolean b)
  | .number n => n.map fun n => .number n.toFloat
  | .string s => s.map .text
  | .array items => match depth with
    | 0 => none
    | d + 1 => (readAll? d items).map .list
  | _ => none

/-- Reads the items of a list. -/
def readAll? (depth : Nat) : List Json.Node → Option (List Scalar)
  | [] => some []
  | n :: rest => do
    let s ← read? depth n
    let more ← readAll? depth rest
    pure (s :: more)

end

/-- Reads named values. -/
def readTable? (depth : Nat) (n : Json.Node) : Option (Table String Scalar) :=
  n.dictionary? depth read?

end Scalar

end Blockwork
