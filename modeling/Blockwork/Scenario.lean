import Blockwork.Handlers
import Blockwork.Limits
import Blockwork.World

/-!
# Scenarios

A scenario says who is online, what stands around them and what happens on which tick.  Participants
of an event are given by name, and a position without a world lies in the world of the scenario.

`Scenario.world` is the world at the start and `Scenario.timeline` the events in tick order; events of
one tick keep the order in which they are written.
-/

namespace Blockwork

/-- An actor of a scenario. -/
structure Performer where
  /-- Identity, by which the actor's script is found. -/
  id : ActorId
  /-- Name, by which events speak of the actor. -/
  name : String
  /-- Where the actor comes online. -/
  position : Place
  /-- Health. -/
  health : Float := 20
deriving Inhabited

/-- An entity of a scenario. -/
structure Fixture where
  /-- What it is. -/
  kind : String
  /-- Where it stands. -/
  position : Place
deriving Inhabited

/-- An event as it is written. -/
structure Cue where
  /-- When. -/
  tick : Nat
  /-- The name of what happens. -/
  kind : String
  /-- The name of who acts. -/
  actor : String
  /-- The names of the other participants by role. -/
  roles : Table String String := {}
  /-- Further data by key. -/
  data : Table String String := {}
deriving Inhabited

/-- An event ready to happen. -/
structure TimedEvent where
  /-- When. -/
  tick : Nat
  /-- What. -/
  event : Event
deriving Inhabited

/-- What goes on in a world. -/
structure Scenario where
  /-- The world meant by positions that name none. -/
  worldName : String := "world"
  /-- Who is online. -/
  actors : List Performer := []
  /-- What stands around. -/
  entities : List Fixture := []
  /-- What happens. -/
  events : List Cue := []
deriving Inhabited

/-- Why a scenario cannot be played. -/
inductive ScenarioError where
  /-- An event of a kind that is not known. -/
  | unknownKind (name : String)
  /-- A participant who is not in the scenario. -/
  | unknownActor (name : String)
deriving DecidableEq, Inhabited

/-- The text of an error. -/
def ScenarioError.message : ScenarioError → String
  | .unknownKind name => "unknown event kind '" ++ name ++ "'"
  | .unknownActor name => "unknown actor '" ++ name ++ "'"

namespace Scenario

/-! ## Reading -/

/-- Reads a text, whatever the depth. -/
def text? (_ : Nat) (n : Json.Node) : Option String := n.text?

open BlockDocument (field? fieldOr) in
/-- Reads a position. -/
def position? (depth : Nat) (n : Json.Node) : Option Place := do
  let (_, fields) ← n.fields? ["world", "x", "y", "z"] depth
  pure {
    world := ← fieldOr fields "world" none (Json.Node.nullable? Json.Node.text?)
    x := ← field? fields "x" Json.Node.float?
    y := ← field? fields "y" Json.Node.float?
    z := ← field? fields "z" Json.Node.float? }

open BlockDocument (field? fieldOr uuid?) in
/-- Reads an actor. -/
def performer? (depth : Nat) (n : Json.Node) : Option Performer := do
  let (depth, fields) ← n.fields? ["id", "name", "position", "health"] depth
  pure {
    id := ← field? fields "id" uuid?
    name := ← field? fields "name" Json.Node.text?
    position := ← field? fields "position" (position? depth)
    health := ← fieldOr fields "health" 20 Json.Node.float? }

open BlockDocument (field?) in
/-- Reads an entity. -/
def fixture? (depth : Nat) (n : Json.Node) : Option Fixture := do
  let (depth, fields) ← n.fields? ["kind", "position"] depth
  pure {
    kind := ← field? fields "kind" Json.Node.text?
    position := ← field? fields "position" (position? depth) }

open BlockDocument (field? fieldOr) in
/-- Reads an event. -/
def cue? (depth : Nat) (n : Json.Node) : Option Cue := do
  let (depth, fields) ← n.fields? ["tick", "kind", "actor", "roles", "data"] depth
  pure {
    tick := ← field? fields "tick" (Json.Node.natural? Json.maxWord)
    kind := ← field? fields "kind" Json.Node.text?
    actor := ← field? fields "actor" Json.Node.text?
    roles := ← fieldOr fields "roles" {} (Json.Node.dictionary? depth text?)
    data := ← fieldOr fields "data" {} (Json.Node.dictionary? depth text?) }

open BlockDocument (fieldOr) in
/-- Reads a scenario; what is left out has its default. -/
def read? (n : Json.Node) : Option Scenario := do
  let (depth, fields) ← n.fields? ["world", "actors", "entities", "events"] Json.Node.maxDepth
  pure {
    worldName := ← fieldOr fields "world" "world" Json.Node.text?
    actors := ← fieldOr fields "actors" [] (Json.Node.list? depth performer?)
    entities := ← fieldOr fields "entities" [] (Json.Node.list? depth fixture?)
    events := ← fieldOr fields "events" [] (Json.Node.list? depth cue?) }

/-- Reads a scenario from JSON text. -/
def ofText? (text : String) : Option Scenario := (Json.Node.ofText? text).bind read?

/-! ## Playing -/

/-- A position in the world it names or else in the world of the scenario. -/
def locate (s : Scenario) (p : Place) : Location :=
  { world := p.world.getD s.worldName, x := p.x, y := p.y, z := p.z }

/-- The world with every actor online and every entity in its place. -/
def world (s : Scenario) : World :=
  let empty : World := { defaultWorld := s.worldName }
  let peopled := s.actors.foldl (fun w a =>
    w.insertActor { id := a.id, name := a.name, location := s.locate a.position, health := a.health })
    empty
  s.entities.foldl (fun w e => w.addEntity e.kind (s.locate e.position)) peopled

/-- The identities of the actors by name; of two actors with one name the later one counts. -/
def ids (s : Scenario) : Table String ActorId := .ofList (s.actors.map fun a => (a.name, a.id))

/-- The identity of an actor given by name. -/
def idOf (s : Scenario) (name : String) : Except ScenarioError ActorId :=
  match s.ids.get? name with
  | some id => .ok id
  | none => .error (.unknownActor name)

/-- An event with its names resolved: the kind first, then the actor, then the roles in order. -/
def resolve (s : Scenario) (c : Cue) : Except ScenarioError TimedEvent := do
  let kind ← match (Named.ofName? c.kind : Option EventKind) with
    | some kind => pure kind
    | none => throw (.unknownKind c.kind)
  let actor ← s.idOf c.actor
  let roles ← c.roles.toList.mapM fun (role, name) => do pure (role, ← s.idOf name)
  pure ⟨c.tick, { kind, actor, roles := .ofList roles, data := c.data }⟩

/-- The events in tick order. -/
def timeline (s : Scenario) : Except ScenarioError (List TimedEvent) := do
  let events ← s.events.mapM s.resolve
  pure (events.mergeSort fun a b => a.tick ≤ b.tick)

end Scenario

end Blockwork
