import Blockwork.Json.Token
import Blockwork.Table

/-!
# Parsed JSON

A `Node` is JSON text after parsing and before anything has been asked of it: members that are
repeated are all still there, as are texts and numbers without a value.  Whoever reads a node says
what is wanted; parts nobody asks for are never judged.

Tokens are assembled by a machine that keeps a stack of the containers still open, so nesting costs
no recursion.  Readers do bound it: each container that is actually looked into uses up one of
`maxDepth` levels.

A record can be read from an object or from a list of its fields in order.  A repeated field is an
error, an unknown one is ignored, and surplus list elements are an error.
-/

namespace Blockwork.Json

/-- JSON text that has been parsed but not yet interpreted. -/
inductive Node where
  /-- The literal `null`. -/
  | null
  /-- A truth value. -/
  | bool (b : Bool)
  /-- A number, if it is in range. -/
  | number (n : Option Number)
  /-- A text, if its escapes are paired. -/
  | string (s : Option String)
  /-- A list. -/
  | array (items : List Node)
  /-- Members in the order of the text, repetitions included. -/
  | object (members : List (Option String × Node))
deriving Inhabited

/-! ## Assembling -/

/-- A container that waits for a value, its contents so far last first. -/
inductive Open where
  /-- A list. -/
  | array (items : List Node)
  /-- An object, with the name of the member that waits. -/
  | object (members : List (Option String × Node)) (name : Option String)

/-- What may come next. -/
inductive Expect where
  /-- A value. -/
  | value
  /-- The first item of a list, or its end. -/
  | itemOrEnd
  /-- The first name of an object, or its end. -/
  | nameOrEnd
  /-- A name, in an object with these members. -/
  | name (members : List (Option String × Node))
  /-- The colon after a name, in an object with these members. -/
  | colon (members : List (Option String × Node)) (name : Option String)
  /-- What follows a complete value. -/
  | after (v : Node)

/-- The containers still open, innermost first, and what may come next. -/
structure Assembly where
  /-- The open containers. -/
  opened : List Open
  /-- What may come next. -/
  expect : Expect

namespace Assembly

/-- Starts a value. -/
def value (opened : List Open) : Token → Option Assembly
  | .null => some ⟨opened, .after .null⟩
  | .bool b => some ⟨opened, .after (.bool b)⟩
  | .number n => some ⟨opened, .after (.number n)⟩
  | .string s => some ⟨opened, .after (.string s)⟩
  | .openBracket => some ⟨.array [] :: opened, .itemOrEnd⟩
  | .openBrace => some ⟨opened, .nameOrEnd⟩
  | _ => none

/-- Takes one token. -/
def step (a : Assembly) (t : Token) : Option Assembly :=
  match a.expect, t with
  | .value, t => value a.opened t
  | .itemOrEnd, .closeBracket =>
    match a.opened with
    | .array _ :: outer => some ⟨outer, .after (.array [])⟩
    | _ => none
  | .itemOrEnd, t => value a.opened t
  | .nameOrEnd, .closeBrace => some ⟨a.opened, .after (.object [])⟩
  | .nameOrEnd, .string s => some ⟨a.opened, .colon [] s⟩
  | .name members, .string s => some ⟨a.opened, .colon members s⟩
  | .colon members name, .colon => some ⟨.object members name :: a.opened, .value⟩
  | .after v, t =>
    match a.opened, t with
    | .array items :: outer, .comma => some ⟨.array (v :: items) :: outer, .value⟩
    | .array items :: outer, .closeBracket => some ⟨outer, .after (.array (v :: items).reverse)⟩
    | .object members name :: outer, .comma => some ⟨outer, .name ((name, v) :: members)⟩
    | .object members name :: outer, .closeBrace =>
      some ⟨outer, .after (.object ((name, v) :: members).reverse)⟩
    | _, _ => none
  | _, _ => none

/-- Takes all tokens. -/
def run (a : Assembly) : List Token → Option Assembly
  | [] => some a
  | t :: ts =>
    match a.step t with
    | some next => run next ts
    | none => none

end Assembly

namespace Node

/-- The value that a list of tokens spells. -/
def ofTokens? (ts : List Token) : Option Node :=
  match Assembly.run ⟨[], .value⟩ ts with
  | some ⟨[], .after v⟩ => some v
  | _ => none

/-- Parses a text that holds one value. -/
def ofText? (s : String) : Option Node := (tokens? s.toList).bind ofTokens?

/-! ## Reading -/

/-- How many containers inside one another a reader looks into. -/
def maxDepth : Nat := 127

/-- A truth value. -/
def bool? : Node → Option Bool
  | .bool b => some b
  | _ => none

/-- A text. -/
def text? : Node → Option String
  | .string s => s
  | _ => none

/-- A number as a double. -/
def float? : Node → Option Float
  | .number n => n.map Number.toFloat
  | _ => none

/-- A natural number of at most `max`, written as an integer. -/
def natural? (max : Nat) : Node → Option Nat
  | .number (some (.whole n)) => if 0 ≤ n ∧ n.toNat ≤ max then some n.toNat else none
  | _ => none

/-- A value that may be `null`. -/
def nullable? {α : Type} (read : Node → Option α) : Node → Option (Option α)
  | .null => some none
  | n => (read n).map some

/-- The items of a list, each read one level further down. -/
def list? {α : Type} (depth : Nat) (read : Nat → Node → Option α) : Node → Option (List α)
  | .array items => match depth with
    | 0 => none
    | d + 1 => items.mapM (read d)
  | _ => none

/-- Named values, each read one level further down; of a repeated name the last value counts. -/
def dictionary? {α : Type} (depth : Nat) (read : Nat → Node → Option α) :
    Node → Option (Table String α)
  | .object members => match depth with
    | 0 => none
    | d + 1 =>
      members.foldlM (fun t m => do
        let name ← m.1
        let v ← read d m.2
        pure (t.insert name v)) Table.empty
  | _ => none

/-- Collects the known fields of an object, each at most once. -/
def knownFields (names : List String) :
    List (Option String × Node) → Table String Node → Option (Table String Node)
  | [], found => some found
  | (none, _) :: _, _ => none
  | (some name, v) :: rest, found =>
    if names.contains name then
      if found.contains name then none else knownFields names rest (found.insert name v)
    else knownFields names rest found

/-- The fields of a record with the given field names, one level further down. -/
def fields? (names : List String) (depth : Nat) : Node → Option (Nat × Table String Node)
  | .object members => match depth with
    | 0 => none
    | d + 1 => (knownFields names members Table.empty).map (d, ·)
  | .array items => match depth with
    | 0 => none
    | d + 1 => if items.length ≤ names.length then some (d, Table.ofList (names.zip items)) else none
  | _ => none

mutual

/-- The value of a node, looking into at most `depth` containers inside one another. -/
def toJson? (depth : Nat) : Node → Option Json
  | .null => some .null
  | .bool b => some (.bool b)
  | .number n => n.map .number
  | .string s => s.map .string
  | .array items => match depth with
    | 0 => none
    | d + 1 => (itemsToJson? d items).map .array
  | .object members => match depth with
    | 0 => none
    | d + 1 => (membersToJson? d members Table.empty).map fun t => .object t.toList

/-- The values of the items of a list. -/
def itemsToJson? (depth : Nat) : List Node → Option (List Json)
  | [] => some []
  | n :: rest => do
    let v ← toJson? depth n
    let vs ← itemsToJson? depth rest
    pure (v :: vs)

/-- The values of the members of an object, by ascending name; of a repeated name the last value
counts. -/
def membersToJson? (depth : Nat) :
    List (Option String × Node) → Table String Json → Option (Table String Json)
  | [], t => some t
  | (name, n) :: rest, t => do
    let k ← name
    let v ← toJson? depth n
    membersToJson? depth rest (t.insert k v)

end

end Node

mutual

/-- A value as a parsed text that spells it. -/
def toNode : Json → Node
  | .null => .null
  | .bool b => .bool b
  | .number n => .number (some n)
  | .string s => .string (some s)
  | .array items => .array (itemsToNode items)
  | .object members => .object (membersToNode members)

/-- The items of a list as parsed texts. -/
def itemsToNode : List Json → List Node
  | [] => []
  | v :: rest => toNode v :: itemsToNode rest

/-- The members of an object as parsed texts. -/
def membersToNode : List (String × Json) → List (Option String × Node)
  | [] => []
  | (k, v) :: rest => (some k, toNode v) :: membersToNode rest

end

/-- Parses a text and values all of it. -/
def ofText? (s : String) : Option Json := (Node.ofText? s).bind (Node.toJson? Node.maxDepth)

end Blockwork.Json
