import Blockwork.Run
import Blockwork.Scenario
import Mathlib.Data.List.Nodup
import Mathlib.Data.List.Perm.Basic

/-!
# What is done to the world

Nobody is online twice.  So an identity stands for one actor (`World.actor?_eq_some_iff`), and it does not
matter where in the list the actor is (`World.actor?_eq_of_perm`).

Blocks do little to the world.  They send messages and move actors, and `World.Passes` is a world after
some of that together with the messages, in the order in which they were sent.  Whatever they were, the
same actors are online as before, and every mailbox has gone on with just the messages to its owner
(`World.Passes.messages_eq`).
-/

namespace Blockwork

/-- A message that is sent. -/
structure Delivery where
  /-- To whom. -/
  actor : ActorId
  /-- Whether the receiver is online. -/
  online : Bool
  /-- What it says. -/
  message : String
deriving DecidableEq

namespace World

/-! ## Actors online -/

/-- An identity stands for one actor. -/
theorem actor?_eq_some_iff {w : World} {id : ActorId} {a : Actor} :
    w.actor? id = some a ↔ a ∈ w.actors ∧ a.id = id := by
  constructor
  · intro found
    exact ⟨List.mem_of_find?_eq_some found, by simpa using List.find?_some found⟩
  · rintro ⟨inside, rfl⟩
    obtain ⟨b, found⟩ := Option.isSome_iff_exists.mp
      (List.find?_isSome (p := fun b => b.id == a.id).mpr ⟨a, inside, beq_self_eq_true _⟩)
    have same : b.id = a.id := by simpa using List.find?_some found
    rw [actor?, found, List.inj_on_of_nodup_map w.distinct (List.mem_of_find?_eq_some found) inside same]

/-- The order of the actors does not matter. -/
theorem actor?_eq_of_perm {v w : World} (reordered : v.actors.Perm w.actors) : v.actor? = w.actor? := by
  funext id
  ext a
  rw [actor?_eq_some_iff, actor?_eq_some_iff, reordered.mem_iff]

/-! ## Messages and moves -/

/-- A world after messages have been sent and actors have been moved, with the messages, oldest first. -/
inductive Passes : World → List Delivery → World → Prop where
  /-- Nothing is done. -/
  | refl (w : World) : Passes w [] w
  /-- A message is sent. -/
  | send {w v : World} {sent : List Delivery} (before : Passes w sent v) (a : ActorId)
      (message : String) :
      Passes w (sent ++ [⟨a, (v.actor? a).isSome, message⟩]) (v.send a message)
  /-- An actor is moved. -/
  | move {w v u : World} {sent : List Delivery} {a : ActorId} {l : Location} (before : Passes w sent v)
      (moved : v.move a l = .ok u) : Passes w sent u

/-- What identifies the actors online. -/
def roster (w : World) : List (ActorId × String) := w.actors.map fun a => (a.id, a.name)

theorem isSome_actor?_iff {w : World} {a : ActorId} :
    (w.actor? a).isSome = true ↔ a ∈ w.roster.map Prod.fst := by
  rw [actor?, List.find?_isSome, roster, List.map_map, List.mem_map]
  simp

/-! ## Leaving and reading -/

/-- Whoever goes offline is the only one who does. -/
theorem isSome_actor?_removeActor_of_ne (w : World) {a b : ActorId} (ne : b ≠ a) :
    ((w.removeActor a).actor? b).isSome = (w.actor? b).isSome := by
  rw [Bool.eq_iff_iff, actor?, actor?, List.find?_isSome, List.find?_isSome]
  constructor
  · rintro ⟨x, mem, own⟩
    exact ⟨x, List.mem_of_mem_eraseP mem, own⟩
  · rintro ⟨x, mem, own⟩
    have other : ¬ (x.id == a) = true := by
      rw [beq_iff_eq.mp own]
      simpa using ne
    exact ⟨x, (List.mem_eraseP_of_neg (p := fun x : Actor => x.id == a) other).mpr mem, own⟩

/-- Whoever goes is offline. -/
theorem actor?_removeActor_self (w : World) (a : ActorId) : (w.removeActor a).actor? a = none := by
  have left : (w.removeActor a).roster.map Prod.fst = (w.actors.map Actor.id).erase a := by
    rw [roster, List.map_map, List.erase_eq_eraseP', List.eraseP_map]
    rfl
  refine Option.not_isSome_iff_eq_none.mp fun here => ?_
  rw [isSome_actor?_iff, left] at here
  exact w.distinct.not_mem_erase here

/-- Nobody comes online when somebody goes. -/
theorem roster_removeActor (w : World) (a : ActorId) :
    (w.removeActor a).roster.Sublist w.roster :=
  List.eraseP_sublist.map _

/-- A mailbox that has been read is empty, and the others are as they were. -/
theorem messages_clearMessages (w : World) (id other : ActorId) :
    (w.clearMessages id).messages other = if id = other then [] else w.messages other := by
  unfold messages clearMessages Table.getD
  rw [Table.get?_erase]
  split <;> rfl

namespace Passes

variable {w v u : World} {sent sent' : List Delivery}

theorem trans (h : w.Passes sent v) (h' : v.Passes sent' u) : w.Passes (sent ++ sent') u := by
  induction h' with
  | refl => rwa [List.append_nil]
  | send _ a message ih =>
      rw [← List.append_assoc]
      exact ih.send a message
  | move _ moved ih => exact ih.move moved

/-- Nobody comes or goes. -/
theorem roster_eq (h : w.Passes sent v) : v.roster = w.roster := by
  induction h with
  | refl => rfl
  | send _ _ _ ih => exact ih
  | @move v u _ a l _ moved ih =>
      rw [← ih]
      unfold World.move at moved
      split at moved
      · cases moved
        have kept (b : Actor) (_ : b.id = a) :
            (({ b with location := l } : Actor).id, b.name) = (b.id, b.name) := rfl
        exact map_updateFirst kept v.actors
      · cases moved

theorem isSome_actor?_eq (h : w.Passes sent v) (a : ActorId) :
    (v.actor? a).isSome = (w.actor? a).isSome := by
  rw [Bool.eq_iff_iff, isSome_actor?_iff, isSome_actor?_iff, h.roster_eq]

theorem onTickThread_eq (h : w.Passes sent v) : v.onTickThread = w.onTickThread := by
  induction h with
  | refl => rfl
  | send _ _ _ ih => exact ih
  | move _ moved ih =>
      unfold World.move at moved
      split at moved
      · cases moved
        exact ih
      · cases moved

/-- **A mailbox goes on with the messages that were sent to its owner**, in the order in which they were
sent. -/
theorem messages_eq (h : w.Passes sent v) (a : ActorId) :
    v.messages a = w.messages a ++ (sent.filter fun d => d.actor == a).map Delivery.message := by
  induction h with
  | refl => simp
  | send _ b message ih =>
      rw [messages_send]
      by_cases own : b = a
      · subst own
        simp [ih]
      · simp [own, ih]
  | move _ moved ih =>
      unfold World.move at moved
      split at moved
      · cases moved
        exact ih
      · cases moved

/-- Whether a receiver is online does not change between the messages. -/
theorem online_eq (h : w.Passes sent v) {d : Delivery} (mem : d ∈ sent) :
    d.online = (w.actor? d.actor).isSome := by
  induction h with
  | refl => cases mem
  | send before b message ih =>
      rcases List.mem_append.mp mem with mem | mem
      · exact ih mem
      · rw [List.mem_singleton.mp mem, ← before.isSome_actor?_eq b]
  | move _ _ ih => exact ih mem

end Passes

/-- Whatever the world is, a change sends messages and moves actors. -/
def Usual (g : World → World) : Prop := ∀ w : World, ∃ sent, w.Passes sent (g w)

/-- Who is online stays online. -/
theorem Usual.isSome_actor?_eq {g : World → World} (h : Usual g) (w : World) (a : ActorId) :
    ((g w).actor? a).isSome = (w.actor? a).isSome := by
  obtain ⟨sent, passes⟩ := h w
  exact passes.isSome_actor?_eq a

theorem usual_sendAll (actors : List Actor) (message : String) :
    Usual fun w => actors.foldl (fun w a => w.send a.id message) w := by
  induction actors with
  | nil => exact fun w => ⟨[], .refl w⟩
  | cons a rest ih =>
      intro w
      obtain ⟨sent, later⟩ := ih (w.send a.id message)
      exact ⟨_, ((Passes.refl w).send a.id message).trans later⟩

/-- Moves actors, or leaves the world as it is if one of them cannot be moved. -/
def tryMoveAll (l : Location) (actors : List Actor) (w : World) : World :=
  match w.moveAll l actors with
  | .ok v => v
  | .error _ => w

theorem passes_moveAll {l : Location} {actors : List Actor} {w v : World}
    (moved : w.moveAll l actors = .ok v) : w.Passes [] v := by
  induction actors generalizing w with
  | nil =>
      cases moved
      exact .refl _
  | cons a rest ih =>
      rw [moveAll] at moved
      split at moved
      · next one => exact ((Passes.refl w).move one).trans (ih moved)
      · cases moved

theorem usual_tryMoveAll (l : Location) (actors : List Actor) : Usual (tryMoveAll l actors) := by
  intro w
  unfold tryMoveAll
  split
  · next moved => exact ⟨[], passes_moveAll moved⟩
  · exact ⟨[], .refl w⟩

end World

/-- What holds of an empty world, and is kept when actors come online and entities are added, holds of the
world of a scenario. -/
theorem Scenario.world_induction (s : Scenario) {P : World → Prop} (empty : P { defaultWorld := s.worldName })
    (insert : ∀ w a, P w → P (w.insertActor a)) (add : ∀ w kind l, P w → P (w.addEntity kind l)) :
    P s.world := by
  have entities (l : List Fixture) (w : World) (h : P w) :
      P (l.foldl (fun w e => w.addEntity e.kind (s.locate e.position)) w) :=
    List.foldlRecOn (motive := P) l _ h fun w h e _ => add w _ _ h
  have actors (l : List Performer) (w : World) (h : P w) :
      P (l.foldl (fun w a => w.insertActor
        { id := a.id, name := a.name, location := s.locate a.position, health := a.health }) w) :=
    List.foldlRecOn (motive := P) l _ h fun w h a _ => insert w _ h
  exact entities _ _ (actors _ _ empty)

/-- A scenario begins on the thread that ticks. -/
theorem Scenario.onTickThread_world (s : Scenario) : s.world.onTickThread = true := by
  refine s.world_induction (P := fun w => w.onTickThread = true) rfl (fun w a h => ?_) fun _ _ _ h => h
  unfold World.insertActor
  split <;> exact h

end Blockwork
