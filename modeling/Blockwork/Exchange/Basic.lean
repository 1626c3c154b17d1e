import Blockwork.Decimal.Numeral
import Blockwork.Json.Basic
import Blockwork.Table
import Blockwork.Uuid

/-!
# Exchange with tools

Tools that drive or watch the engine talk to it in JSON.  Unlike documents, this JSON has to carry
every number, so numbers are written as text, with a word for those that have no digits; they are read
from text or from JSON numbers.  A text that is very long is shown by its length and its two ends.

This module has the parts that all forms share: access to members, and the simple values.
-/

namespace Blockwork

namespace Json

/-- The items of a list; none of anything else. -/
def items : Json → List Json
  | .array l => l
  | _ => []

/-- The members of an object; none of anything else. -/
def members : Json → List (String × Json)
  | .object l => l
  | _ => []

/-- A text. -/
def text? : Json → Option String
  | .string s => some s
  | _ => none

/-- A natural number. -/
def natural? : Json → Option Nat
  | .number (.whole n) => if 0 ≤ n then some n.toNat else none
  | _ => none

/-- A truth value. -/
def bool? : Json → Option Bool
  | .bool b => some b
  | _ => none

/-- The member of an object with a name. -/
def get? (j : Json) (name : String) : Option Json := j.members.lookup name

/-- The member of an object with a name, unless it is `null`. -/
def given? (j : Json) (name : String) : Option Json :=
  match j.get? name with
  | some .null => none
  | v => v

/-- The items of a list member. -/
def listAt (j : Json) (name : String) : List Json := ((j.get? name).map items).getD []

/-- The members of an object member. -/
def membersAt (j : Json) (name : String) : List (String × Json) :=
  ((j.get? name).map members).getD []

/-- The text of a member, or a given one. -/
def textAt (j : Json) (name : String) (default : String := "") : String :=
  ((j.get? name).bind text?).getD default

/-- The natural number of a member, or a given one. -/
def naturalAt (j : Json) (name : String) (default : Nat := 0) : Nat :=
  ((j.get? name).bind natural?).getD default

/-- The truth value of a member, or a given one. -/
def boolAt (j : Json) (name : String) (default : Bool) : Bool :=
  ((j.get? name).bind bool?).getD default

end Json

namespace Exchange

/-- A number as text. -/
def float (x : Float) : Json := .string (Decimal.plain x)

/-- A single as text. -/
def single (x : Float32) : Json := .string (Decimal.plainSingle x)

/-- Reads a number. -/
def float? : Json → Option Float
  | .number n => some n.toFloat
  | .string s => Numeral.float? s
  | _ => none

/-- The number of a member, or a given one. -/
def floatAt (j : Json) (name : String) (default : Float := 0) : Float :=
  ((j.get? name).bind float?).getD default

/-- An identity. -/
def uuid (u : Uuid) : Json := .string u.text

/-- Reads an identity. -/
def uuid? (j : Json) : Option Uuid := j.text?.bind Uuid.parse?

/-- The identity of a member. -/
def uuidAt? (j : Json) (name : String) : Option Uuid := (j.get? name).bind uuid?

/-- A value, or `null` if there is none. -/
def optional {α : Type} (write : α → Json) : Option α → Json
  | some a => write a
  | none => .null

/-- A list of values. -/
def list {α : Type} (write : α → Json) (l : List α) : Json := .array (l.map write)

/-- Named values. -/
def table {α : Type} (write : α → Json) (t : Table String α) : Json :=
  .object (t.toList.map fun (k, v) => (k, write v))

/-- The length up to which texts are shown in full. -/
def shownLength : Nat := 2000

/-- How much is shown of either end of a longer text. -/
def endLength : Nat := 40

/-- A text, shown by its length and its ends if it is very long. -/
def text (s : String) : Json :=
  let n := s.length
  if n ≤ shownLength then .string s
  else
    let cs := s.toList
    .object [("len", .natural n), ("head", .string (String.ofList (cs.take endLength))),
      ("tail", .string (String.ofList (cs.drop (n - endLength))))]

end Exchange

end Blockwork
