import Blockwork.Document.Error
import Blockwork.Params

/-!
# Values and parameters in documents

A text value is a JSON string and a number literal a JSON number, as long as its template is the
number's own text; every other value is an object whose `kind` names what it is.  Parameters follow
the shape their schema gives: `Param.ofJson` reads one and `Param.toJson` writes one.
-/

namespace Blockwork

/-! ## Values -/

/-- A member of an object. -/
def Json.member? (members : List (String × Json)) (name : String) : Option Json :=
  members.lookup name

/-- A text member. -/
def Json.textMember? (members : List (String × Json)) (name : String) : Option String :=
  match Json.member? members name with
  | some (.string s) => some s
  | _ => none

/-- A member that may be left out, read by `read` when present. -/
def Json.memberOr? {α : Type} (members : List (String × Json)) (name : String) (default : α)
    (read : Json → Option α) : Option α :=
  match Json.member? members name with
  | some v => read v
  | none => some default

namespace Json

/-- A number as a double. -/
def toFloat? : Json → Option Float
  | .number n => some n.toFloat
  | _ => none

/-- A number as a single. -/
def toSingle? : Json → Option Float32
  | .number n => some n.toSingle
  | _ => none

/-- A natural number below `bound`, written as an integer. -/
def toNatBelow? (bound : Nat) : Json → Option Nat
  | .number (.whole n) => if 0 ≤ n ∧ n.toNat < bound then some n.toNat else none
  | _ => none

/-- A text or `null`. -/
def toOptionalText? : Json → Option (Option String)
  | .null => some none
  | .string s => some (some s)
  | _ => none

end Json

namespace Value

open Json in
/-- Reads an object whose `kind` names the kind of value it describes. -/
def ofTagged? (members : List (String × Json)) : Option Value := do
  let tag ← textMember? members "kind"
  let kind ← (Named.all : List ValueKind).find? fun k => Named.name k == tag
  match kind with
  | .text => pure (.text (← textMember? members "raw"))
  | .number => pure (.number (.ofRaw (← textMember? members "raw")))
  | .variable_ => pure (.variable_ (← textMember? members "name"))
  | .location =>
    pure (.location {
      world := ← memberOr? members "world" none toOptionalText?
      x := ← memberOr? members "x" 0 toFloat?
      y := ← memberOr? members "y" 0 toFloat?
      z := ← memberOr? members "z" 0 toFloat?
      yaw := ← memberOr? members "yaw" 0 toSingle?
      pitch := ← memberOr? members "pitch" 0 toSingle? })
  | .item =>
    pure (.item {
      material := ← textMember? members "material"
      amount := ← memberOr? members "amount" 1 fun v => (toNatBelow? (Nat.pow 2 32) v).map Nat.toUInt32
      displayName := ← memberOr? members "display_name" none toOptionalText? })
  | .sound =>
    pure (.sound {
      sound := ← textMember? members "sound"
      volume := ← memberOr? members "volume" 1 toSingle?
      pitch := ← memberOr? members "pitch" 1 toSingle? })
  | .particle =>
    pure (.particle {
      particle := ← textMember? members "particle"
      count := ← memberOr? members "count" 1 fun v => (toNatBelow? (Nat.pow 2 32) v).map Nat.toUInt32
      spread := ← memberOr? members "spread" 0 toFloat? })
  | .potionEffect =>
    pure (.potionEffect {
      effect := ← textMember? members "effect"
      durationTicks :=
        ← memberOr? members "duration_ticks" 200 fun v => (toNatBelow? (Nat.pow 2 32) v).map Nat.toUInt32
      amplifier :=
        ← memberOr? members "amplifier" 0 fun v => (toNatBelow? (Nat.pow 2 8) v).map Nat.toUInt8 })

/-- The members that describe a value, without its kind. -/
def details : Value → List (String × Json)
  | .text raw => [("raw", .string raw)]
  | .number n => [("raw", .string n.raw)]
  | .variable_ name => [("name", .string name)]
  | .location p =>
    (p.world.map fun w => ("world", Json.string w)).toList ++
      [("x", .real p.x), ("y", .real p.y), ("z", .real p.z), ("yaw", .real (Binary.widen p.yaw)),
       ("pitch", .real (Binary.widen p.pitch))]
  | .item i =>
    [("material", .string i.material), ("amount", .natural i.amount.toNat)] ++
      (i.displayName.map fun n => ("display_name", Json.string n)).toList
  | .sound s =>
    [("sound", .string s.sound), ("volume", .real (Binary.widen s.volume)),
     ("pitch", .real (Binary.widen s.pitch))]
  | .particle p =>
    [("particle", .string p.particle), ("count", .natural p.count.toNat), ("spread", .real p.spread)]
  | .potionEffect p =>
    [("effect", .string p.effect), ("duration_ticks", .natural p.durationTicks.toNat),
     ("amplifier", .natural p.amplifier.toNat)]

/-- The object that describes a value, its members by ascending name. -/
def tagged (v : Value) : Json :=
  .object (Table.ofList (("kind", Json.string (Named.name v.kind)) :: v.details)).toList

/-- The value in a document. -/
def toJson (v : Value) : Json :=
  match v with
  | .text raw => .string raw
  | .number ⟨raw, some x, _⟩ =>
    if Binary.isFinite x && raw == Decimal.display x then .number (.real x) else v.tagged
  | _ => v.tagged

/-- Reads a value.  A truth value stands for its word. -/
def ofJson : Json → Except Misfit Value
  | .string raw => .ok (.text raw)
  | .number n => .ok (.ofFloat n.toFloat)
  | .bool b => .ok (.text (if b then "true" else "false"))
  | .object members =>
    match ofTagged? members with
    | some v => .ok v
    | none => .error .noValue
  | found => .error (.expected "a value" found)

end Value

/-! ## Parameters -/

/-- What a shape is called in an error. -/
def Shape.description : Shape → String
  | .value _ => "a value"
  | .name _ => "an enum name"
  | .bool => "a boolean"
  | .integer => "an integer"
  | .text => "text"
  | .names => "a list of names"
  | .condition => "a condition object"
  | .values => "an object of values"

/-- The bounds of whole parameters. -/
def Param.leastInteger : Int := -(Nat.pow 2 63 : Nat)

/-- The bounds of whole parameters. -/
def Param.greatestInteger : Int := (Nat.pow 2 63 - 1 : Nat)

/-- A number as a whole parameter: cut off toward zero and kept within bounds. -/
def Json.Number.toInteger : Json.Number → Int
  | .whole n =>
    if n ≤ Param.greatestInteger then n
    else Binary.saturate Param.leastInteger Param.greatestInteger (Binary.ofInt n)
  | .real x => Binary.saturate Param.leastInteger Param.greatestInteger x

/-- Reads a list of names. -/
def namesOfJson : List Json → Except Misfit (List String)
  | [] => .ok []
  | .string s :: rest => (namesOfJson rest).map (s :: ·)
  | found :: _ => .error (.expected "a name" found)

/-- Reads named values. -/
def valuesOfJson : List (String × Json) → Except Misfit (Table String Value)
  | members => members.foldlM (fun t m => do
      let v ← Value.ofJson m.2
      pure (t.insert m.1 v)) Table.empty

/-- The shape that a schema gives to a parameter; one that is not listed is a value. -/
def shapeIn (schema : List ParamSpec) (name : String) : Shape :=
  match schema.find? fun spec => spec.name == name with
  | some spec => spec.shape
  | none => .value none

/-- Reads a parameter of any shape but a nested condition. -/
def Param.ofPlainJson (shape : Shape) (json : Json) : Except Misfit Param :=
  match shape, json with
  | .value _, json => (Value.ofJson json).map .value
  | .name _, .string s => .ok (.name s)
  | .bool, .bool b => .ok (.bool b)
  | .bool, .string s => .ok (.bool (Text.sameLetters s "true"))
  | .integer, .number n => .ok (.integer n.toInteger)
  | .integer, .string s =>
    match Text.signed? (Nat.pow 2 63) (Text.trim s) with
    | some n => .ok (.integer n)
    | none => .error (.notInteger s)
  | .text, .string s => .ok (.text s)
  | .text, .number n => .ok (.text n.written)
  | .names, .array items => (namesOfJson items).map .names
  | .names, .string s => .ok (.names ((Text.commaParts s).filter fun n => !n.isEmpty))
  | .values, .object members => (valuesOfJson members).map .values
  | shape, json => .error (.expected shape.description json)

/-- Reads parameters one by one; `null` counts as left out.  An error comes with the name of the
parameter it is about. -/
def paramsWith (read : Shape → Json → Except Misfit Param) (schema : List ParamSpec)
    (members : List (String × Json)) : Except (String × Misfit) Params :=
  members.foldlM (fun params m =>
    match m.2 with
    | .null => .ok params
    | json =>
      match read (shapeIn schema m.1) json with
      | .ok p => .ok (params.insert m.1 p)
      | .error reason => .error (m.1, reason)) Table.empty

/-- Reads a parameter of a block. -/
def Param.ofJson (block : BlockId) (shape : Shape) (json : Json) : Except Misfit Param :=
  match shape, json with
  | .condition, .object members =>
    match paramsWith Param.ofPlainJson Condition.schema members with
    | .ok params => .ok (.condition params.toCondition)
    | .error (field, reason) => .error (.nested block field reason)
  | shape, json => Param.ofPlainJson shape json

/-- Writes a parameter that is not a nested condition. -/
def Param.toPlainJson : Param → Json
  | .value v => v.toJson
  | .name s | .text s => .string s
  | .bool b => .bool b
  | .integer n => .whole n
  | .names l => .array (l.map .string)
  | .values t => .object (t.map Value.toJson).toList
  | .condition _ => .null

/-- Writes a parameter. -/
def Param.toJson : Param → Json
  | .condition c =>
    .object ((Params.putCondition {} c).map Param.toPlainJson).toList
  | p => p.toPlainJson

/-- Reads the parameters of a block. -/
def Params.ofJson (block : BlockId) (schema : List ParamSpec) (members : List (String × Json)) :
    Except DocumentError Params :=
  match paramsWith (Param.ofJson block) schema members with
  | .ok params => .ok params
  | .error (field, reason) => .error (.malformedParameter block field reason)

end Blockwork
