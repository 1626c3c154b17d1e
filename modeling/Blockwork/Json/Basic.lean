import Blockwork.Decimal.Written
import Blockwork.Text.Split

/-!
# JSON values and how they are written

A number is either an integer or a double; the distinction is part of the format, since an integer
is written without a point and a double always with a point or an exponent.  A double without a
decimal form is written as `null`.  The members of an object are kept and written in the order in
which they are given.
-/

namespace Blockwork

/-- A JSON number: an integer or a number with a fraction part. -/
inductive Json.Number where
  /-- An integer. -/
  | whole (n : Int)
  /-- A double. -/
  | real (x : Float)

/-- A JSON value. -/
inductive Json where
  /-- The literal `null`. -/
  | null
  /-- A truth value. -/
  | bool (b : Bool)
  /-- A number. -/
  | number (n : Json.Number)
  /-- A text. -/
  | string (s : String)
  /-- A list of values. -/
  | array (items : List Json)
  /-- Named values in order. -/
  | object (members : List (String × Json))
deriving Inhabited

namespace Json

/-- A double as a value. -/
def real (x : Float) : Json :=
  match Decimal.document? x with
  | some _ => .number (.real x)
  | none => .null

/-- An integer as a value. -/
def whole (n : Int) : Json := .number (.whole n)

/-- A natural number as a value. -/
def natural (n : Nat) : Json := whole n

namespace Number

/-- The text of a number. -/
def written : Number → String
  | .whole n => Text.whole n
  | .real x => (Decimal.document? x).getD "null"

/-- The number as a double. -/
def toFloat : Number → Float
  | .whole n => Binary.ofInt n
  | .real x => x

/-- The number as a single, rounded once. -/
def toSingle : Number → Float32
  | .whole n => Binary.singleOfInt n
  | .real x => Binary.narrow x

end Number

/-- The hexadecimal digit of a number below sixteen. -/
def hexDigit (n : Nat) : Char :=
  if n < 10 then Char.ofNat (n + '0'.toNat) else Char.ofNat (n - 10 + 'a'.toNat)

/-- A character as it stands between the quotes of a text. -/
def escaped (c : Char) : List Char :=
  if c = '"' then ['\\', '"']
  else if c = '\\' then ['\\', '\\']
  else if c.toNat = 8 then ['\\', 'b']
  else if c.toNat = 9 then ['\\', 't']
  else if c.toNat = 10 then ['\\', 'n']
  else if c.toNat = 12 then ['\\', 'f']
  else if c.toNat = 13 then ['\\', 'r']
  else if c.toNat < 32 then
    ['\\', 'u', '0', '0', hexDigit (c.toNat / 16), hexDigit (c.toNat % 16)]
  else [c]

/-- A text between quotes. -/
def quoted (s : String) : String :=
  "\"" ++ String.ofList (s.toList.flatMap escaped) ++ "\""

mutual

/-- The value on one line without blanks. -/
def compact : Json → String
  | .null => "null"
  | .bool b => if b then "true" else "false"
  | .number n => n.written
  | .string s => quoted s
  | .array items => "[" ++ Text.join "," (compactItems items) ++ "]"
  | .object members => "\x7b" ++ Text.join "," (compactMembers members) ++ "\x7d"

/-- The items of a list, each on one line. -/
def compactItems : List Json → List String
  | [] => []
  | v :: rest => compact v :: compactItems rest

/-- The members of an object, each on one line. -/
def compactMembers : List (String × Json) → List String
  | [] => []
  | (k, v) :: rest => (quoted k ++ ":" ++ compact v) :: compactMembers rest

end

/-- The blanks in front of a line at a given depth. -/
def indent (depth : Nat) : String := String.ofList (List.replicate (2 * depth) ' ')

/-- Lines between an opening and a closing mark, indented one step further than the marks. -/
def block (opening closing : String) (depth : Nat) (lines : List String) : String :=
  if lines.isEmpty then opening ++ closing
  else
    opening ++ "\n" ++ Text.join ",\n" (lines.map fun l => indent (depth + 1) ++ l) ++ "\n" ++
      indent depth ++ closing

mutual

/-- The value with one item or member a line, indented by two blanks a level. -/
def pretty (depth : Nat) : Json → String
  | .null => "null"
  | .bool b => if b then "true" else "false"
  | .number n => n.written
  | .string s => quoted s
  | .array items => block "[" "]" depth (prettyItems (depth + 1) items)
  | .object members => block "\x7b" "\x7d" depth (prettyMembers (depth + 1) members)

/-- The items of a list, each as an indented text. -/
def prettyItems (depth : Nat) : List Json → List String
  | [] => []
  | v :: rest => pretty depth v :: prettyItems depth rest

/-- The members of an object, each as an indented text. -/
def prettyMembers (depth : Nat) : List (String × Json) → List String
  | [] => []
  | (k, v) :: rest => (quoted k ++ ": " ++ pretty depth v) :: prettyMembers depth rest

end

end Json

end Blockwork
