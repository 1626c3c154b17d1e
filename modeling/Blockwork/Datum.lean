import Blockwork.Scalar
import Blockwork.Uuid
import Blockwork.Value

/-!
# Values at run time

What variables hold while blocks run.  Besides what can be stored there are actors, entities,
locations and the compound descriptions; when a variable is stored these become text, so
`Datum.ofScalar` does not undo `Datum.toScalar` on them.

Conversions to number, text and truth value are total.  `Datum.equals` is the comparison scripts
make: numbers within a tolerance, text without regard to the case of ASCII letters.  `Datum.agrees`
is equality of values.
-/

namespace Blockwork

/-- A place in a named world. -/
structure Location where
  /-- Name of the world. -/
  world : String := ""
  /-- East. -/
  x : Float := 0
  /-- Up. -/
  y : Float := 0
  /-- South. -/
  z : Float := 0
  /-- Horizontal angle. -/
  yaw : Float32 := 0
  /-- Vertical angle. -/
  pitch : Float32 := 0
deriving BEq, Inhabited

namespace Location

/-- The square of the distance; none between worlds. -/
def distanceSquared (a b : Location) : Option Float :=
  if a.world = b.world then
    let dx := a.x - b.x
    let dy := a.y - b.y
    let dz := a.z - b.z
    some (Binary.fusedMulAdd dz dz (Binary.fusedMulAdd dx dx (dy * dy)))
  else none

/-- Whether another place is in the same world and no farther than a radius. -/
def within (a b : Location) (radius : Float) : Bool :=
  match a.distanceSquared b with
  | some d => d ≤ radius * radius
  | none => false

/-- World and coordinates; the angles are not shown. -/
def text (l : Location) : String :=
  Text.join "," [l.world, Decimal.display l.x, Decimal.display l.y, Decimal.display l.z]

end Location

/-- Identity of an entity that is not an actor. -/
abbrev EntityId := Nat

/-- A value at run time. -/
inductive Datum where
  /-- No value. -/
  | nothing
  /-- A truth value. -/
  | boolean (b : Bool)
  /-- A number. -/
  | number (x : Float)
  /-- A text. -/
  | text (s : String)
  /-- An actor. -/
  | actor (id : ActorId)
  /-- An entity. -/
  | entity (id : EntityId)
  /-- A location. -/
  | location (l : Location)
  /-- An item stack. -/
  | item (i : Item)
  /-- A sound. -/
  | sound (s : Sound)
  /-- Particles. -/
  | particle (p : Particle)
  /-- A potion effect. -/
  | potion (p : Potion)
  /-- A list. -/
  | list (items : List Datum)
deriving Inhabited

namespace Datum

mutual

/-- Equality of values, numbers by value. -/
def agrees : Datum → Datum → Bool
  | .nothing, .nothing => true
  | .boolean a, .boolean b => a == b
  | .number a, .number b => a == b
  | .text a, .text b => a == b
  | .actor a, .actor b => a == b
  | .entity a, .entity b => a == b
  | .location a, .location b => a == b
  | .item a, .item b => a == b
  | .sound a, .sound b => a == b
  | .particle a, .particle b => a == b
  | .potion a, .potion b => a == b
  | .list a, .list b => agreesAll a b
  | _, _ => false

/-- Equality of lists of values. -/
def agreesAll : List Datum → List Datum → Bool
  | [], [] => true
  | a :: as, b :: bs => agrees a b && agreesAll as bs
  | _, _ => false

end

instance : BEq Datum := ⟨agrees⟩

/-- Whether there is no value. -/
def isNothing : Datum → Bool
  | .nothing => true
  | _ => false

/-- The value taken as true or false. -/
def asBoolean : Datum → Bool
  | .nothing => false
  | .boolean b => b
  | .number x => x != 0
  | .text s => !s.isEmpty && !Text.sameLetters s "false"
  | .list items => !items.isEmpty
  | _ => true

/-- The value as a number, if it has one. -/
def number? : Datum → Option Float
  | .boolean b => some (if b then 1 else 0)
  | .number x => some x
  | .text s => Numeral.float? (Text.trim s)
  | .list items => some (Binary.ofNat items.length)
  | _ => none

/-- The value as a number, zero if it has none. -/
def asNumber (d : Datum) : Float := d.number?.getD 0

mutual

/-- The value as text. -/
def asText : Datum → String
  | .nothing => ""
  | .boolean b => boolText b
  | .number x => Decimal.display x
  | .text s => s
  | .actor id => id.text
  | .entity id => "entity:" ++ Text.natural id
  | .location l => l.text
  | .item i => i.text
  | .sound s => s.sound
  | .particle p => p.particle
  | .potion p => p.effect
  | .list items => Text.join ", " (asTexts items)

/-- The items of a list as texts. -/
def asTexts : List Datum → List String
  | [] => []
  | d :: rest => asText d :: asTexts rest

end

/-- The elements to go through.  Text is cut at commas; other single values are lists of one. -/
def toList : Datum → List Datum
  | .nothing => []
  | .list items => items
  | .text s => if Text.isBlankText s then [] else (Text.commaParts s).map .text
  | d => [d]

/-- How far apart equal numbers may be. -/
def tolerance : Float := Float.ofBits 0x3cb0000000000000

/-- Whether two numbers are equal for a script. -/
def near (a b : Float) : Bool := (a - b).abs < tolerance

/-- Whether two values are equal for a script. -/
def equals (a b : Datum) : Bool :=
  let mixed := match a.number?, b.number? with
    | some x, some y => near x y
    | _, _ => Text.sameLetters a.asText b.asText
  match a, b with
  | .number x, .number y => near x y
  | .text s, .text t => Text.sameLetters s t
  | .number _, .text _ | .text _, .number _ => mixed
  | .boolean _, .text _ | .text _, .boolean _ => Text.sameLetters a.asText b.asText
  | a, b => a.agrees b

mutual

/-- The form in which a value is stored. -/
def toScalar : Datum → Scalar
  | .boolean b => .boolean b
  | .number x => .number x
  | .list items => .list (toScalars items)
  | d => .text d.asText

/-- The forms in which values are stored. -/
def toScalars : List Datum → List Scalar
  | [] => []
  | d :: rest => toScalar d :: toScalars rest

end

mutual

/-- The value of a stored form. -/
def ofScalar : Scalar → Datum
  | .boolean b => .boolean b
  | .number x => .number x
  | .text s => .text s
  | .list items => .list (ofScalars items)

/-- The values of stored forms. -/
def ofScalars : List Scalar → List Datum
  | [] => []
  | s :: rest => ofScalar s :: ofScalars rest

end

end Datum

end Blockwork
