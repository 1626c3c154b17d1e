import Blockwork.Operation.Conditions

/-!
# Finding a subject

A target block looks for its subject in the world as seen by the acting actor.  Nearest means least
distance, and among equally near candidates the actor of least name or the entity of least identity.
-/

namespace Blockwork

/-- How far a search goes when nothing is said. -/
def defaultRadius : Float := 16

/-- The first element that no other comes before, for a comparison given as `before`. -/
def leastBy {α : Type} (before : α → α → Bool) : List α → Option α
  | [] => none
  | a :: rest => some (rest.foldl (fun best b => if before b best then b else best) a)

/-- Whether one candidate is nearer than another, or as near and first by a key. -/
def nearerBy {κ : Type} [LT κ] [DecidableLT κ] (a b : Float × κ) : Bool :=
  match compareNumbers a.1 b.1 with
  | .lt => true
  | .gt => false
  | .eq => decide (a.2 < b.2)

/-- Several actors as a subject. -/
def Target.group (actors : List Actor) : Target :=
  if actors.isEmpty then .nobody else .actors (actors.map Actor.id)

namespace Scene

/-- The search radius. -/
def radius (s : Scene) (t : Targeting) : Attempt Float :=
  match t.radius with
  | some _ => s.number t.radius "radius"
  | none => .ok defaultRadius

/-- The other actors no farther than a radius from an actor, each with the distance and name. -/
def actorsAround (s : Scene) (me : Actor) (radius : Float) : List ((Float × String) × ActorId) :=
  s.world.actors.filterMap fun a =>
    if a.id = me.id then none
    else
      match me.location.distanceSquared a.location with
      | some d => if d ≤ radius * radius then some ((d, a.name), a.id) else none
      | none => none

/-- The entities no farther than a radius from a place, each with the distance. -/
def entitiesAround (s : Scene) (center : Location) (radius : Float) :
    List ((Float × EntityId) × EntityId) :=
  (s.world.entitiesNear center radius).filterMap fun e =>
    (center.distanceSquared e.location).map fun d => ((d, e.id), e.id)

/-- The subject that the value of a variable stands for. -/
def targetOf (s : Scene) : Option Datum → Target
  | none | some .nothing => .nobody
  | some (.actor id) => .actor id
  | some (.entity id) => .entity id
  | some (.text name) =>
    match s.world.actorNamed? (Text.trim name) with
    | some a => .actor a.id
    | none => .value (.text name)
  | some d => .value d

/-- Finds the subject of a target block. -/
def findTarget (s : Scene) (t : Targeting) (dice : Dice) : Attempt Target × Dice :=
  let me := s.world.actor? s.context.frame.actor
  match t.kind with
  | none => (.error (.absent .targetKind), dice)
  | some .currentActor =>
    (.ok (match me with
      | some a => .actor a.id
      | none => .nobody), dice)
  | some .allOnline => (.ok (.group s.world.actors), dice)
  | some .sameWorld =>
    (.ok (match me with
      | some me => .group (s.world.actors.filter fun a => a.location.world == me.location.world)
      | none => .nobody), dice)
  | some .nearestActor =>
    (match me with
      | none => .ok .nobody
      | some me =>
        (s.radius t).map fun radius =>
          match leastBy (fun a b => nearerBy a.1 b.1) (s.actorsAround me radius) with
          | some (_, id) => .actor id
          | none => .nobody, dice)
  | some .randomActor =>
    let (chosen, dice) := dice.choose s.world.actors
    (.ok (match chosen with
      | some a => .actor a.id
      | none => .nobody), dice)
  | some .nearestEntity =>
    (match me with
      | none => .ok .nobody
      | some me =>
        (s.radius t).map fun radius =>
          match leastBy (fun a b => nearerBy a.1 b.1) (s.entitiesAround me.location radius) with
          | some (_, id) => .entity id
          | none => .nobody, dice)
  | some .entitiesInRadius =>
    (match me with
      | none => .ok .nobody
      | some me =>
        (s.radius t).map fun radius =>
          match ((s.world.entitiesNear me.location radius).map Entity.id).mergeSort with
          | [] => .nobody
          | ids => .entities ids, dice)
  | some .actorByName =>
    ((s.text t.name "actor name").map fun name =>
      match s.world.actorNamed? (Text.trim name) with
      | some a => .actor a.id
      | none => .nobody, dice)
  | some .variable_ =>
    (match t.name with
      | none => .error (.missing "variable name")
      | some v => .ok (s.targetOf (s.context.get? (s.variableName v.raw))), dice)

end Scene

end Blockwork
