import Blockwork.Failure
import Blockwork.Table

/-!
# The world

Who is online, what stands around, and the messages that were delivered.  Actors keep the order in
which they came online, and nobody is online twice.  An actor who leaves keeps the messages received so
far.
-/

namespace Blockwork

/-- An actor who is online. -/
structure Actor where
  /-- Identity. -/
  id : ActorId
  /-- Name. -/
  name : String
  /-- Where the actor is. -/
  location : Location
  /-- Health. -/
  health : Float := 20
  /-- Food level. -/
  food : Nat := 20
  /-- Experience level. -/
  level : Nat := 0
deriving Inhabited

/-- An entity that is not an actor. -/
structure Entity where
  /-- Identity. -/
  id : EntityId
  /-- What it is. -/
  kind : String
  /-- Where it is. -/
  location : Location
deriving Inhabited

/-- The world scripts act on. -/
structure World where
  /-- The world meant by locations that name none. -/
  defaultWorld : String := "world"
  /-- The actors online, first come first. -/
  actors : List Actor := []
  /-- The entities, oldest first. -/
  entities : List Entity := []
  /-- The identity of the next entity. -/
  nextEntity : EntityId := 0
  /-- Messages received, newest first. -/
  mail : Table ActorId (List String) := {}
  /-- Whether calls come from the thread that ticks. -/
  onTickThread : Bool := true
  /-- Nobody is online twice. -/
  distinct : (actors.map Actor.id).Nodup := by exact List.nodup_nil

namespace World

instance : Inhabited World := ⟨{}⟩

/-- The actor with an identity, if online. -/
def actor? (w : World) (id : ActorId) : Option Actor := w.actors.find? fun a => a.id == id

/-- The first actor online with a name, in any case. -/
def actorNamed? (w : World) (name : String) : Option Actor :=
  w.actors.find? fun a => Text.sameLetters a.name name

/-- The entity with an identity. -/
def entity? (w : World) (id : EntityId) : Option Entity := w.entities.find? fun e => e.id == id

/-- The entities no farther than a radius from a place. -/
def entitiesNear (w : World) (center : Location) (radius : Float) : List Entity :=
  w.entities.filter fun e => center.within e.location radius

/-- Changes the first actor with an identity. -/
def updateFirst (id : ActorId) (f : Actor → Actor) : List Actor → List Actor
  | [] => []
  | a :: rest => if a.id = id then f a :: rest else a :: updateFirst id f rest

/-- What does not change about the actor who is changed does not change about the others either. -/
theorem map_updateFirst {β : Type} {g : Actor → β} {id : ActorId} {change : Actor → Actor}
    (keeps : ∀ a, a.id = id → g (change a) = g a) (actors : List Actor) :
    (updateFirst id change actors).map g = actors.map g := by
  induction actors with
  | nil => rfl
  | cons a rest ih =>
      rw [updateFirst]
      split
      · next same => rw [List.map_cons, List.map_cons, keeps a same]
      · rw [List.map_cons, List.map_cons, ih]

theorem nodup_updateFirst (w : World) {id : ActorId} {change : Actor → Actor}
    (keeps : ∀ a, a.id = id → (change a).id = a.id) :
    ((updateFirst id change w.actors).map Actor.id).Nodup := by
  rw [map_updateFirst keeps]
  exact w.distinct

theorem nodup_append_actor (w : World) {a : Actor} (away : ¬ (w.actor? a.id).isSome) :
    ((w.actors ++ [a]).map Actor.id).Nodup := by
  rw [List.map_append, List.nodup_append]
  refine ⟨w.distinct, List.pairwise_singleton _ _, ?_⟩
  rintro _ known _ new rfl
  obtain ⟨b, inside, same⟩ := List.mem_map.mp known
  have own : b.id = a.id := same.trans (List.mem_singleton.mp new)
  exact away (List.find?_isSome.mpr ⟨b, inside, beq_iff_eq.mpr own⟩)

theorem nodup_eraseP (w : World) (p : Actor → Bool) : ((w.actors.eraseP p).map Actor.id).Nodup :=
  w.distinct.sublist (List.eraseP_sublist.map _)

/-- Brings an actor online, or replaces what is known of one who is. -/
def insertActor (w : World) (a : Actor) : World :=
  if online : (w.actor? a.id).isSome then
    { w with
      actors := updateFirst a.id (fun _ => a) w.actors
      distinct := w.nodup_updateFirst fun _ same => same.symm }
  else { w with actors := w.actors ++ [a], distinct := w.nodup_append_actor online }

/-- Takes an actor offline. -/
def removeActor (w : World) (id : ActorId) : World :=
  { w with actors := w.actors.eraseP fun a => a.id == id, distinct := w.nodup_eraseP _ }

/-- Sets an actor's health. -/
def setHealth (w : World) (id : ActorId) (health : Float) : World :=
  { w with
    actors := updateFirst id (fun a => { a with health := health }) w.actors
    distinct := w.nodup_updateFirst fun _ _ => rfl }

/-- Adds an entity. -/
def addEntity (w : World) (kind : String) (location : Location) : World :=
  { w with
    entities := w.entities ++ [⟨w.nextEntity, kind, location⟩]
    nextEntity := w.nextEntity + 1 }

/-- Removes an entity. -/
def removeEntity (w : World) (id : EntityId) : World :=
  { w with entities := w.entities.filter fun e => e.id != id }

/-- Moves an actor. -/
def move (w : World) (id : ActorId) (location : Location) : Except Refusal World :=
  if (w.actor? id).isSome then
    .ok { w with
      actors := updateFirst id (fun a => { a with location := location }) w.actors
      distinct := w.nodup_updateFirst fun _ _ => rfl }
  else .error (.actorOffline id)

/-- The messages an actor has received, oldest first. -/
def messages (w : World) (id : ActorId) : List String := (w.mail.getD id []).reverse

/-- Delivers a message. -/
def send (w : World) (id : ActorId) (message : String) : World :=
  { w with mail := w.mail.insert id (message :: w.mail.getD id []) }

/-- A message is the last one its receiver has, and nobody else sees it. -/
theorem messages_send (w : World) (id other : ActorId) (message : String) :
    (w.send id message).messages other =
      if id = other then w.messages id ++ [message] else w.messages other := by
  unfold messages send Table.getD
  rw [Table.get?_insert]
  split <;> simp_all

/-- Forgets the messages an actor has received. -/
def clearMessages (w : World) (id : ActorId) : World := { w with mail := w.mail.erase id }

end World

end Blockwork
