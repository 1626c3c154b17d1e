import Blockwork.Decimal.Numeral
import Blockwork.Decimal.Written
import Blockwork.Kinds
import Blockwork.Text.Split

/-!
# Authored values

What an author writes into a block: a text or number template, the name of a variable, or one of
five compound descriptions.  Templates are kept as written, since roles and variables are filled in
only when a block runs; a number template that is a plain number already is read once, here.

Every kind has a one-line authored form.  Reading it never fails: what does not parse falls back to
the kind's default.
-/

namespace Blockwork

/-- A number template and the number it is, if it has no placeholders.  The two belong together:
either the number was read from the template, or the template is the number's own text. -/
structure NumberText where
  /-- The template. -/
  raw : String
  /-- The number. -/
  literal : Option Float
  /-- One of the two was made from the other. -/
  linked : literal = Numeral.float? (Text.trim raw) ∨ literal.map Decimal.display = some raw

namespace NumberText

/-- The template as written, read as a number where it is one. -/
def ofRaw (raw : String) : NumberText := ⟨raw, Numeral.float? (Text.trim raw), .inl rfl⟩

/-- A given number. -/
def ofFloat (x : Float) : NumberText := ⟨Decimal.display x, some x, .inr rfl⟩

instance : Inhabited NumberText := ⟨ofRaw ""⟩

instance : BEq NumberText := ⟨fun m n => m.raw == n.raw && m.literal == n.literal⟩

end NumberText

/-- A place; without a world it lies in the default one. -/
structure Place where
  /-- Name of the world. -/
  world : Option String := none
  /-- East. -/
  x : Float := 0
  /-- Up. -/
  y : Float := 0
  /-- South. -/
  z : Float := 0
  /-- Horizontal angle. -/
  yaw : Float32 := 0
  /-- Vertical angle. -/
  pitch : Float32 := 0
deriving BEq, Inhabited

namespace Place

/-- A place from its parts as written. -/
def ofParts? (world : Option String) (x y z yaw pitch : String) : Option Place := do
  pure {
    world := world.filter fun w => !w.isEmpty
    x := ← Numeral.float? x
    y := ← Numeral.float? y
    z := ← Numeral.float? z
    yaw := ← Numeral.single? yaw
    pitch := ← Numeral.single? pitch }

/-- Reads `x,y,z`, `world,x,y,z` or `world,x,y,z,yaw,pitch`; anything else is the origin. -/
def parse (raw : String) : Place :=
  let found := match Text.commaParts raw with
    | [x, y, z] => ofParts? none x y z "0" "0"
    | [world, x, y, z] => ofParts? (some world) x y z "0" "0"
    | [world, x, y, z, yaw, pitch] => ofParts? (some world) x y z yaw pitch
    | _ => none
  found.getD {}

/-- The authored form; the angles are written when one of them is not zero. -/
def text (p : Place) : String :=
  let world := match p.world with
    | some w => w ++ ","
    | none => ""
  let angles :=
    if p.yaw != 0 || p.pitch != 0 then
      "," ++ Decimal.plainSingle p.yaw ++ "," ++ Decimal.plainSingle p.pitch
    else ""
  world ++ Decimal.plain p.x ++ "," ++ Decimal.plain p.y ++ "," ++ Decimal.plain p.z ++ angles

end Place

/-- Reads an unsigned number of thirty-two bits. -/
def word32? (s : String) : Option UInt32 := (Text.unsigned? (Nat.pow 2 32 - 1) s).map Nat.toUInt32

/-- Reads an unsigned number of eight bits. -/
def word8? (s : String) : Option UInt8 := (Text.unsigned? (Nat.pow 2 8 - 1) s).map Nat.toUInt8

/-- A stack of items. -/
structure Item where
  /-- What it is made of, in capitals. -/
  material : String
  /-- How many. -/
  amount : UInt32 := 1
  /-- A name of its own. -/
  displayName : Option String := none
deriving DecidableEq, BEq, Inhabited

namespace Item

/-- Reads `MATERIAL[,amount[,name]]`; the name may contain commas. -/
def parse (raw : String) : Item :=
  let parts := (Text.splitAtMost ',' 3 raw.toList).map fun cs => Text.trim (String.ofList cs)
  let material := parts.head?.getD ""
  { material := Text.upperAscii (if material.isEmpty then "AIR" else material)
    amount := (parts[1]?.bind word32?).getD 1
    displayName := parts[2]?.filter fun n => !n.isEmpty }

/-- The authored form. -/
def text (i : Item) : String :=
  let name := match i.displayName with
    | some n => "," ++ n
    | none => ""
  i.material ++ "," ++ Text.natural i.amount.toNat ++ name

end Item

/-- A sound to be played. -/
structure Sound where
  /-- Which one. -/
  sound : String
  /-- How loud. -/
  volume : Float32 := 1
  /-- How high. -/
  pitch : Float32 := 1
deriving BEq, Inhabited

namespace Sound

/-- Reads `sound[,volume[,pitch]]`. -/
def parse (raw : String) : Sound :=
  let parts := Text.commaParts raw
  { sound := parts.head?.getD ""
    volume := (parts[1]?.bind Numeral.single?).getD 1
    pitch := (parts[2]?.bind Numeral.single?).getD 1 }

/-- The authored form. -/
def text (s : Sound) : String :=
  s.sound ++ "," ++ Decimal.plainSingle s.volume ++ "," ++ Decimal.plainSingle s.pitch

end Sound

/-- Particles to be shown. -/
structure Particle where
  /-- Which ones. -/
  particle : String
  /-- How many. -/
  count : UInt32 := 1
  /-- How far apart. -/
  spread : Float := 0
deriving BEq, Inhabited

namespace Particle

/-- Reads `particle[,count[,spread]]`. -/
def parse (raw : String) : Particle :=
  let parts := Text.commaParts raw
  { particle := parts.head?.getD ""
    count := (parts[1]?.bind word32?).getD 1
    spread := (parts[2]?.bind Numeral.float?).getD 0 }

/-- The authored form. -/
def text (p : Particle) : String :=
  p.particle ++ "," ++ Text.natural p.count.toNat ++ "," ++ Decimal.plain p.spread

end Particle

/-- A potion effect. -/
structure Potion where
  /-- Which one, in capitals when read from text. -/
  effect : String
  /-- For how many ticks. -/
  durationTicks : UInt32 := 200
  /-- How strong. -/
  amplifier : UInt8 := 0
deriving DecidableEq, BEq, Inhabited

namespace Potion

/-- Reads `effect[,ticks[,amplifier]]`. -/
def parse (raw : String) : Potion :=
  let parts := Text.commaParts raw
  { effect := Text.upperAscii (parts.head?.getD "")
    durationTicks := (parts[1]?.bind word32?).getD 200
    amplifier := (parts[2]?.bind word8?).getD 0 }

/-- The authored form. -/
def text (p : Potion) : String :=
  p.effect ++ "," ++ Text.natural p.durationTicks.toNat ++ "," ++ Text.natural p.amplifier.toNat

end Potion

/-- An authored value. -/
inductive Value where
  /-- A text template. -/
  | text (raw : String)
  /-- A number template. -/
  | number (n : NumberText)
  /-- A variable by its name, itself a template. -/
  | variable_ (name : String)
  /-- A place. -/
  | location (p : Place)
  /-- An item stack. -/
  | item (i : Item)
  /-- A sound. -/
  | sound (s : Sound)
  /-- Particles. -/
  | particle (p : Particle)
  /-- A potion effect. -/
  | potionEffect (p : Potion)
deriving BEq, Inhabited

/-- The name inside `{name}` or `%name%`, blanks around it dropped; any other text is trimmed. -/
def stripMarkers (raw : String) : String :=
  let trimmed := Text.trimChars raw.toList
  let inner := (Text.unwrapChars '\x7b' '\x7d' trimmed).orElse fun _ =>
    Text.unwrapChars '%' '%' trimmed
  String.ofList (inner.getD trimmed)

namespace Value

/-- A given number. -/
def ofFloat (x : Float) : Value := .number (.ofFloat x)

/-- A reference to the variable that a text names. -/
def reference (name : String) : Value := .variable_ (stripMarkers name)

/-- Reads the authored form of a kind. -/
def parse (kind : ValueKind) (raw : String) : Value :=
  match kind with
  | .text => .text raw
  | .number => .number (.ofRaw (Text.trim raw))
  | .variable_ => reference raw
  | .location => .location (Place.parse raw)
  | .item => .item (Item.parse raw)
  | .sound => .sound (Sound.parse raw)
  | .particle => .particle (Particle.parse raw)
  | .potionEffect => .potionEffect (Potion.parse raw)

/-- The kind of a value. -/
def kind : Value → ValueKind
  | .text _ => .text
  | .number _ => .number
  | .variable_ _ => .variable_
  | .location _ => .location
  | .item _ => .item
  | .sound _ => .sound
  | .particle _ => .particle
  | .potionEffect _ => .potionEffect

/-- The authored form. -/
def raw : Value → String
  | .text raw => raw
  | .number n => n.raw
  | .variable_ name => "\x7b" ++ name ++ "\x7d"
  | .location p => p.text
  | .item i => i.text
  | .sound s => s.text
  | .particle p => p.text
  | .potionEffect p => p.text

/-- Whether a value can stand where a kind is expected.  A text or a variable can stand anywhere,
since what it is shows only when it is filled in. -/
def satisfies (v : Value) (expected : ValueKind) : Bool :=
  v.kind == expected || v.kind == .variable_ || v.kind == .text

/-- The template of a number literal that is not finite, and so has no place in a document. -/
def nonFinite? : Value → Option String
  | .number ⟨raw, some x, _⟩ => if Binary.isFinite x then none else some raw
  | _ => none

end Value

/-- A question with up to two operands, possibly turned around.  The check is missing when a
document names one that is not known. -/
structure Condition where
  /-- What is asked. -/
  check : Option Check := none
  /-- First operand. -/
  left : Option Value := none
  /-- Second operand. -/
  right : Option Value := none
  /-- Whether the answer is turned around. -/
  invert : Bool := false
deriving BEq, Inhabited

namespace Condition

/-- A condition with both operands. -/
def compare (check : Check) (left right : Value) : Condition :=
  { check := some check, left := some left, right := some right }

/-- The same question with the opposite answer. -/
def inverted (c : Condition) : Condition := { c with invert := !c.invert }

end Condition

end Blockwork
