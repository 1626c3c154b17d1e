import Blockwork.Effects
import Blockwork.Exchange.Datum
import Blockwork.Handlers
import Blockwork.Scenario
import Blockwork.World

/-!
# Worlds, events and effects, exchanged
-/

namespace Blockwork

open Exchange

namespace Actor

/-- The actor as JSON. -/
def toJson (a : Actor) : Json :=
  .object [("id", uuid a.id), ("name", .string a.name), ("loc", a.location.toJson),
    ("health", float a.health), ("food", .natural a.food), ("level", .natural a.level)]

/-- Reads an actor. -/
def ofJson? (j : Json) : Option Actor := do
  pure {
    id := ← uuidAt? j "id"
    name := j.textAt "name"
    location := Location.ofMember j "loc"
    health := floatAt j "health" 20
    food := j.naturalAt "food" 20
    level := j.naturalAt "level" }

end Actor

/-- The entity as JSON. -/
def Entity.toJson (e : Entity) : Json :=
  .object [("id", .natural e.id), ("kind", .string e.kind), ("loc", e.location.toJson)]

namespace World

/-- Reads a world: its name, the actors online and the entities, in order. -/
def ofJson? (j : Json) : Option World := do
  let actors ← (j.listAt "actors").mapM Actor.ofJson?
  let empty : World := { defaultWorld := j.textAt "world" "world" }
  pure ((j.listAt "entities").foldl
    (fun w e => w.addEntity (e.textAt "kind") (Location.ofMember e "loc"))
    (actors.foldl insertActor empty))

/-- Where the actors are, by name. -/
def whereabouts (w : World) : Json :=
  table .string (.ofList (w.actors.map fun a => (a.name, a.location.text)))

end World

namespace Event

/-- Reads an event whose kind is already known. -/
def ofJson? (kind : EventKind) (j : Json) : Option Event := do
  let roles ← (j.membersAt "roles").mapM fun (k, v) => do pure (k, ← uuid? v)
  let data ← (j.membersAt "data").mapM fun (k, v) => do pure (k, ← v.text?)
  pure { kind, actor := ← uuidAt? j "actor", roles := .ofList roles, data := .ofList data }

end Event

/-- The event as JSON. -/
def TimedEvent.toJson (t : TimedEvent) : Json :=
  .object [("tick", .natural t.tick), ("kind", .string (Named.name t.event.kind)),
    ("actor", uuid t.event.actor), ("roles", table uuid t.event.roles),
    ("data", table .string t.event.data)]

/-- The handler as JSON. -/
def Handler.toJson (h : Handler) : Json :=
  .object [("id", .natural h.id), ("owner", uuid h.owner), ("line", .natural h.line)]

/-- The request as JSON. -/
def Performed.toJson (p : Performed) : Json :=
  .object [("actor", uuid p.actor), ("kind", .string p.kind),
    ("parameters", table Datum.toJson p.parameters)]

end Blockwork
