import Blockwork.Context
import Blockwork.Template
import Blockwork.World

/-!
# From authored values to values at run time

An authored value is resolved against a context and the world.  In a template `%name%` is a role of
the event if one is bound and a variable otherwise, and `{name}` is a variable; what matches nothing
stays as it is.  A text that is nothing but `{name}` keeps the type of its variable.
-/

namespace Blockwork

/-- What values are resolved against. -/
structure Scene where
  /-- The run. -/
  context : Context
  /-- The world. -/
  world : World

namespace Scene

mutual

/-- A value as text, with actors who are online by name. -/
def display (s : Scene) : Datum → String
  | .actor id =>
    match s.world.actor? id with
    | some a => a.name
    | none => id.text
  | .list items => Text.join ", " (displayAll s items)
  | d => d.asText

/-- Values as texts. -/
def displayAll (s : Scene) : List Datum → List String
  | [] => []
  | d :: rest => display s d :: displayAll s rest

end

/-- The text for a placeholder, if its name is known. -/
def lookup (s : Scene) (m : Template.Marker) (name : String) : Option String :=
  let role := match m with
    | .percent => s.context.role? name
    | .brace => none
  role.orElse fun _ => (s.context.get? name).map s.display

/-- A template with its placeholders filled in. -/
def substitute (s : Scene) (template : String) : String := Template.fill s.lookup template

/-- The name in a text that is nothing but `{name}`. -/
def bracedName? (cs : List Char) : Option String :=
  match Text.unwrapChars '\x7b' '\x7d' cs with
  | some inner => if Template.isName inner then some (String.ofList inner) else none
  | none => none

/-- The value of the variable that a text consists of. -/
def wholeVariable? (s : Scene) (raw : String) : Option Datum :=
  (bracedName? (Text.trimChars raw.toList)).bind s.context.get?

/-- The name of a variable, which may be a template and may be in braces. -/
def variableName (s : Scene) (raw : String) : String :=
  let trimmed := Text.trim raw
  let inner := (bracedName? trimmed.toList).getD trimmed
  Text.trim (s.substitute inner)

/-- A place with the default world filled in. -/
def locate (s : Scene) (p : Place) : Location :=
  { world := p.world.getD s.world.defaultWorld
    x := p.x
    y := p.y
    z := p.z
    yaw := p.yaw
    pitch := p.pitch }

/-- The value of an authored value. -/
def resolve (s : Scene) : Value → Datum
  | .text raw =>
    match s.wholeVariable? raw with
    | some d => d
    | none => .text (s.substitute raw)
  | .number ⟨raw, literal, _⟩ =>
    match literal with
    | some x => .number x
    | none =>
      match s.wholeVariable? raw with
      | some d => .number d.asNumber
      | none => .number ((Numeral.float? (Text.trim (s.substitute raw))).getD 0)
  | .variable_ name => (s.context.get? (s.variableName name)).getD .nothing
  | .location p => .location (s.locate p)
  | .item i => .item i
  | .sound snd => .sound snd
  | .particle p => .particle p
  | .potionEffect p => .potion p

/-- The value of a parameter; nothing if it is not set. -/
def resolveOptional (s : Scene) : Option Value → Datum
  | some v => s.resolve v
  | none => .nothing

/-- The value of a parameter that must be set. -/
def require (s : Scene) (v : Option Value) (what : String) : Attempt Datum :=
  match v with
  | some v => .ok (s.resolve v)
  | none => .error (.missing what)

/-- The value of a parameter as a number. -/
def number (s : Scene) (v : Option Value) (what : String) : Attempt Float := do
  match ← s.require v what with
  | .nothing => pure 0
  | .boolean b => pure (Datum.boolean b).asNumber
  | .number x => pure x
  | .text t => pure (Datum.text t).asNumber
  | .list items => pure (Datum.list items).asNumber
  | d => throw (.wrongType what "a number" d.asText)

/-- The value of a parameter as text. -/
def text (s : Scene) (v : Option Value) (what : String) : Attempt String := do
  pure (s.display (← s.require v what))

/-- The value of a parameter as a location.  Text is read as a place; actors and entities stand for
where they are. -/
def location (s : Scene) (v : Option Value) (what : String) : Attempt Location := do
  match ← s.require v what with
  | .location l => pure l
  | .text raw => pure (s.locate (Place.parse raw))
  | .actor id =>
    match s.world.actor? id with
    | some a => pure a.location
    | none => throw (.unknown (.actor id))
  | .entity id =>
    match s.world.entity? id with
    | some e => pure e.location
    | none => throw (.unknown (.entity id))
  | .nothing => throw (.unknown (.unset what))
  | d => throw (.wrongType what "a location" d.asText)

/-- The actors among the subject who are online; it fails when there are none. -/
def onlineActors (s : Scene) (none' : Unknown) : Attempt (List Actor) :=
  match s.context.frame.target.actorIds.filterMap s.world.actor? with
  | [] => .error (.unknown none')
  | actors => .ok actors

end Scene

end Blockwork
