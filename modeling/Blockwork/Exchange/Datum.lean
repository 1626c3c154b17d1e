import Blockwork.Context
import Blockwork.Exchange.Basic

/-!
# Values at run time, exchanged

Nothing is `null`, truth values, texts and lists stand for themselves, and everything else is an
object with one member that says what it is.  Compound descriptions are written out and read from
their authored form.
-/

namespace Blockwork

open Exchange

namespace Location

/-- The location in full. -/
def toJson (l : Location) : Json :=
  .object [("world", .string l.world), ("x", float l.x), ("y", float l.y), ("z", float l.z),
    ("yaw", single l.yaw), ("pitch", single l.pitch)]

/-- Reads a location; coordinates and angles that are left out are zero. -/
def ofJson (j : Json) : Location :=
  { world := j.textAt "world"
    x := floatAt j "x"
    y := floatAt j "y"
    z := floatAt j "z"
    yaw := Binary.narrow (floatAt j "yaw")
    pitch := Binary.narrow (floatAt j "pitch") }

/-- Reads a location member. -/
def ofMember (j : Json) (name : String) : Location := ofJson ((j.get? name).getD .null)

end Location

/-- The item in full. -/
def Item.toJson (i : Item) : Json :=
  .object [("material", .string i.material), ("amount", .natural i.amount.toNat),
    ("display_name", optional .string i.displayName)]

/-- The sound in full. -/
def Sound.toJson (s : Sound) : Json :=
  .object [("sound", .string s.sound), ("volume", single s.volume), ("pitch", single s.pitch)]

/-- The particles in full. -/
def Particle.toJson (p : Particle) : Json :=
  .object [("particle", .string p.particle), ("count", .natural p.count.toNat),
    ("spread", float p.spread)]

/-- The effect in full. -/
def Potion.toJson (p : Potion) : Json :=
  .object [("effect", .string p.effect), ("duration_ticks", .natural p.durationTicks.toNat),
    ("amplifier", .natural p.amplifier.toNat)]

/-- What there is to an authored value besides its kind. -/
def Value.detail : Value → Json
  | .text _ => .null
  | .number n => .object [("literal", optional float n.literal)]
  | .variable_ name => .object [("name", .string name)]
  | .location p =>
    .object [("world", optional .string p.world), ("x", float p.x), ("y", float p.y),
      ("z", float p.z), ("yaw", single p.yaw), ("pitch", single p.pitch)]
  | .item i => i.toJson
  | .sound s => s.toJson
  | .particle p => p.toJson
  | .potionEffect p => p.toJson

namespace Datum

mutual

/-- The value as JSON. -/
def toJson : Datum → Json
  | .nothing => .null
  | .boolean b => .bool b
  | .number x => .object [("num", float x)]
  | .text s => Exchange.text s
  | .actor id => .object [("actor", uuid id)]
  | .entity id => .object [("entity", .natural id)]
  | .location l => .object [("location", l.toJson)]
  | .item i => .object [("item", i.toJson)]
  | .sound s => .object [("sound", s.toJson)]
  | .particle p => .object [("particle", p.toJson)]
  | .potion p => .object [("effect", p.toJson)]
  | .list items => .array (toJsons items)

/-- Several values as JSON. -/
def toJsons : List Datum → List Json
  | [] => []
  | d :: rest => toJson d :: toJsons rest

end

/-- Reads a value that is marked with what it is. -/
def ofTagged? (tag : String) (j : Json) : Option Datum :=
  if tag = "num" then (float? j).map .number
  else if tag = "actor" then (uuid? j).map .actor
  else if tag = "entity" then j.natural?.map .entity
  else if tag = "location" then some (.location (Location.ofJson j))
  else if tag = "item" then j.text?.map fun s => .item (Item.parse s)
  else if tag = "sound" then j.text?.map fun s => .sound (Sound.parse s)
  else if tag = "particle" then j.text?.map fun s => .particle (Particle.parse s)
  else if tag = "effect" then j.text?.map fun s => .potion (Potion.parse s)
  else none

mutual

/-- Reads a value. -/
def ofJson? : Json → Option Datum
  | .null => some .nothing
  | .bool b => some (.boolean b)
  | .number n => some (.number n.toFloat)
  | .string s => some (.text s)
  | .array items => (ofJsons? items).map .list
  | .object [(tag, v)] => ofTagged? tag v
  | .object _ => none

/-- Reads several values. -/
def ofJsons? : List Json → Option (List Datum)
  | [] => some []
  | j :: rest => do
    let d ← ofJson? j
    let more ← ofJsons? rest
    pure (d :: more)

end

/-- Reads named values. -/
def tableOfJson? (members : List (String × Json)) : Option (Table String Datum) := do
  let entries ← members.mapM fun (k, v) => do pure (k, ← ofJson? v)
  pure (.ofList entries)

end Datum

/-- Stored variables as values at run time. -/
def globalsJson (globals : Table String Scalar) : Json :=
  table (fun s => (Datum.ofScalar s).toJson) globals

namespace Target

/-- The subject as JSON. -/
def toJson : Target → Json
  | .nobody => .null
  | .actor id => .object [("actor", uuid id)]
  | .actors ids => .object [("actors", list uuid ids)]
  | .entity id => .object [("entity", .natural id)]
  | .entities ids => .object [("entities", list .natural ids)]
  | .value d => .object [("value", d.toJson)]

/-- Reads a subject. -/
def ofJson? : Json → Option Target
  | .null => some .nobody
  | .object [(tag, v)] =>
    if tag = "actor" then (uuid? v).map .actor
    else if tag = "actors" then (v.items.mapM uuid?).map .actors
    else if tag = "entity" then v.natural?.map .entity
    else if tag = "entities" then (v.items.mapM Json.natural?).map .entities
    else if tag = "value" then (Datum.ofJson? v).map .value
    else none
  | _ => none

end Target

/-- The variables of a context that have a value. -/
def Context.variablesJson (c : Context) : Json :=
  let shown := c.visibleNames.filterMap fun name => (c.get? name).map fun d => (name, d)
  table Datum.toJson (.ofList shown)

end Blockwork
