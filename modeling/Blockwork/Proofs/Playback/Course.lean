import Blockwork.Playback
import Blockwork.Proofs.Handlers
import Blockwork.Proofs.Session.Departure
import Blockwork.Proofs.Session.Posting

/-!
# The course of a playback

A playback does five things to its session: it ticks, hands over an event, lets an actor depart, takes the
messages from the mailboxes of the actors online, and takes an actor offline.  A course is a list of these
things with the messages that were sent and the ones that were taken (`Session.Follows`).  The messages
that were sent are not free to choose: for each actor they are what the mailbox has grown by
(`World.Passes.messages_eq`).

## What is load-bearing

`Session.Course` is a course on which no message is lost.  What an actor has in the mailbox at first and
is sent while online is what is taken from the mailbox and what is in it at last.  Each thing that a
playback does keeps to that by itself, with one exception: the mailbox of an actor who goes offline is
read no more, so it has to be empty by then (`Session.Course.removed`).
-/

namespace Blockwork

/-- Something that a playback does to its session. -/
inductive Occurrence where
  /-- A tick passes, and messages are sent. -/
  | ticked (sent : List Delivery)
  /-- An event is handed over, and messages are sent. -/
  | dispatched (e : Event) (sent : List Delivery)
  /-- An actor departs. -/
  | departed (a : ActorId)
  /-- Messages are taken from the mailboxes. -/
  | collected (relays : List Relay)
  /-- An actor goes offline. -/
  | removed (a : ActorId)

namespace Occurrence

/-- The event that is handed over. -/
def event? : Occurrence → Option Event
  | .dispatched e _ => some e
  | _ => none

/-- The messages that are sent. -/
def sent : Occurrence → List Delivery
  | .ticked l | .dispatched _ l => l
  | _ => []

/-- The messages that are taken from the mailboxes. -/
def taken : Occurrence → List Relay
  | .collected l => l
  | _ => []

/-- How many ticks pass. -/
def ticks : Occurrence → Nat
  | .ticked _ => 1
  | _ => 0

end Occurrence

/-- What is sent to an actor who is online, in the order in which it is sent. -/
def Delivery.reaching (a : ActorId) (l : List Delivery) : List String :=
  (l.filter fun d => d.actor == a && d.online).map Delivery.message

/-- What is taken from an actor's mailbox, in the order in which it is taken. -/
def Relay.for_ (a : ActorId) (l : List Relay) : List String :=
  (l.filter fun r => r.actor == a).map Relay.message

/-- What an actor who is online has not read. -/
def World.unread (w : World) (a : ActorId) : List String :=
  if (w.actor? a).isSome then w.messages a else []

theorem Delivery.reaching_append (a : ActorId) (l l' : List Delivery) :
    reaching a (l ++ l') = reaching a l ++ reaching a l' := by
  rw [reaching, List.filter_append, List.map_append]
  rfl

theorem Relay.for_append (a : ActorId) (l l' : List Relay) :
    for_ a (l ++ l') = for_ a l ++ for_ a l' := by
  rw [for_, List.filter_append, List.map_append]
  rfl

/-! ## Mailboxes -/

/-- While messages are sent, what is unread goes on with what reaches the actor. -/
theorem World.Passes.unread_eq {w v : World} {sent : List Delivery} (h : w.Passes sent v) (a : ActorId) :
    v.unread a = w.unread a ++ Delivery.reaching a sent := by
  unfold unread Delivery.reaching
  rw [h.isSome_actor?_eq a]
  cases online : (w.actor? a).isSome with
  | true =>
      have all : (sent.filter fun d => d.actor == a && d.online) = sent.filter fun d => d.actor == a := by
        refine List.filter_congr fun d mem => ?_
        rw [h.online_eq mem]
        grind
      rw [all, if_pos rfl, if_pos rfl]
      exact h.messages_eq a
  | false =>
      have none : (sent.filter fun d => d.actor == a && d.online) = [] := by
        refine List.filter_eq_nil_iff.mpr fun d mem => ?_
        rw [h.online_eq mem]
        grind
      rw [none]
      rfl

namespace Playback

theorem actors_drain (l : List Actor) (w : World) : (drain l w).2.actors = w.actors := by
  induction l generalizing w with
  | nil => rfl
  | cons x rest ih => exact ih (w.clearMessages x.id)

theorem onTickThread_drain (l : List Actor) (w : World) :
    (drain l w).2.onTickThread = w.onTickThread := by
  induction l generalizing w with
  | nil => rfl
  | cons x rest ih => exact ih (w.clearMessages x.id)

/-- The mailboxes that are drained are empty afterwards. -/
theorem messages_drain (l : List Actor) (w : World) (a : ActorId) :
    (drain l w).2.messages a = if a ∈ l.map Actor.id then [] else w.messages a := by
  induction l generalizing w with
  | nil => rfl
  | cons x rest ih =>
      show (drain rest (w.clearMessages x.id)).2.messages a = _
      rw [ih, World.messages_clearMessages]
      grind

/-- What is drained is what was in the mailbox. -/
theorem for_drain (l : List Actor) (w : World) (a : ActorId) :
    Relay.for_ a (drain l w).1 = if a ∈ l.map Actor.id then w.messages a else [] := by
  induction l generalizing w with
  | nil => rfl
  | cons x rest ih =>
      have own : Relay.for_ a ((w.messages x.id).map fun m => ⟨x.id, x.name, m⟩) =
          if x.id = a then w.messages a else [] := by
        unfold Relay.for_
        by_cases same : x.id = a
        · simp [same, List.filter_map, Function.comp_def]
        · simp [same, List.filter_map, Function.comp_def]
      show Relay.for_ a (_ ++ (drain rest (w.clearMessages x.id)).1) = _
      rw [Relay.for_append, own, ih, World.messages_clearMessages]
      grind

/-- Messages are drained under the names of their receivers. -/
theorem names_drain (l : List Actor) (w : World) :
    ∀ r ∈ (drain l w).1, (r.actor, r.name) ∈ l.map fun a => (a.id, a.name) := by
  induction l generalizing w with
  | nil => exact fun r mem => nomatch mem
  | cons x rest ih =>
      intro r mem
      rcases List.mem_append.mp mem with mem | mem
      · obtain ⟨m, -, rfl⟩ := List.mem_map.mp mem
        exact List.mem_cons_self ..
      · exact List.mem_cons_of_mem _ (ih _ r mem)

end Playback

/-! ## Courses -/

namespace Session

variable {σ : Type}

/-- A session in another world. -/
def inWorld (s : Session σ) (w : World) : Session σ := { s with machine := { s.machine with world := w } }

/-- What is in the mailboxes of the actors online. -/
def mail (s : Session σ) : List Relay := (Playback.drain s.machine.world.actors s.machine.world).1

/-- A session after the mailboxes have been emptied. -/
def emptied (s : Session σ) : Session σ :=
  s.inWorld (Playback.drain s.machine.world.actors s.machine.world).2

/-- A session after an actor has gone offline. -/
def without (s : Session σ) (a : ActorId) : Session σ := s.inWorld (s.machine.world.removeActor a)

/-- A session whose lines about side effects have been moved to another log. -/
def unlogged (s : Session σ) : Session σ :=
  { s with machine := { s.machine with effects := s.machine.effects.clearLog } }

variable [Archive σ]

/-- A playback does something to its session. -/
inductive Occurs (s : Session σ) : Occurrence → Session σ → Prop where
  /-- The session ticks. -/
  | ticked {sent : List Delivery} (passes : s.machine.world.Passes sent s.tick.machine.world) :
      Occurs s (.ticked sent) s.tick.unlogged
  /-- The lines of the acting actor that wait for an event are started. -/
  | dispatched {e : Event} {sent : List Delivery}
      (passes : s.machine.world.Passes sent (s.dispatchNow e).machine.world) :
      Occurs s (.dispatched e sent) (s.dispatchNow e).unlogged
  /-- The session lets an actor go. -/
  | departed (a : ActorId) : Occurs s (.departed a) (s.depart a).2
  /-- The mailboxes of all actors online are drained. -/
  | collected : Occurs s (.collected s.mail) s.emptied
  /-- An actor goes offline. -/
  | removed (a : ActorId) : Occurs s (.removed a) (s.without a)

/-- One thing after another is done to a session. -/
inductive Follows : Session σ → List Occurrence → Session σ → Prop where
  /-- Nothing is done. -/
  | nil (s : Session σ) : Follows s [] s
  /-- Something is done first. -/
  | cons {s s' s'' : Session σ} {x : Occurrence} {l : List Occurrence} (first : s.Occurs x s')
      (rest : Follows s' l s'') : Follows s (x :: l) s''

namespace Follows

variable {s s' s'' : Session σ} {l l' : List Occurrence}

theorem append (h : s.Follows l s') (h' : s'.Follows l' s'') : s.Follows (l ++ l') s'' := by
  induction h with
  | nil s => exact h'
  | cons first _ ih => exact .cons first (ih h')

/-- A course has a session in the middle. -/
theorem split (h : s.Follows (l ++ l') s'') : ∃ s', s.Follows l s' ∧ s'.Follows l' s'' := by
  induction l generalizing s with
  | nil => exact ⟨s, .nil s, h⟩
  | cons x l ih =>
      cases h with
      | cons first rest =>
          obtain ⟨s', before, after⟩ := ih rest
          exact ⟨s', .cons first before, after⟩

end Follows

/-! ## What stays on a course -/

/-- What a playback leaves alone: the limits and the thread; nobody comes online; and a contradiction
is noted once for all, and only if the limits are one. -/
structure Continues (s s' : Session σ) : Prop where
  /-- The limits stay. -/
  limits : s'.limits = s.limits
  /-- So does the thread. -/
  thread : s'.machine.world.onTickThread = s.machine.world.onTickThread
  /-- Nobody comes online. -/
  roster : s'.machine.world.roster.Sublist s.machine.world.roster
  /-- A contradiction stays. -/
  stays : s.machine.contradicted = true → s'.machine.contradicted = true
  /-- A contradiction comes from the limits. -/
  sound : s'.machine.contradicted = true → s.machine.contradicted = true ∨ s.limits.Contradictory

namespace Continues

variable {s s' s'' : Session σ}

omit [Archive σ]

theorem refl (s : Session σ) : Continues s s := ⟨rfl, rfl, .refl _, id, .inl⟩

theorem trans (h : Continues s s') (h' : Continues s' s'') : Continues s s'' where
  limits := h'.limits.trans h.limits
  thread := h'.thread.trans h.thread
  roster := h'.roster.trans h.roster
  stays := h'.stays ∘ h.stays
  sound noted := by
    have sound := h'.sound noted
    rw [h.limits] at sound
    exact sound.elim h.sound .inr

/-- Messages have been sent and actors have been moved, perhaps on another tick. -/
theorem of_posts {agenda : Agenda}
    (h : Posts { s with machine := { s.machine with agenda := agenda } } s') : Continues s s' := by
  obtain ⟨sent, passes⟩ := h.machine.world
  refine ⟨h.limits, passes.onTickThread_eq, ?_, h.machine.stays, h.machine.sound⟩
  rw [passes.roster_eq]

/-- The world changes. -/
theorem inWorld {w : World} (thread : w.onTickThread = s.machine.world.onTickThread)
    (roster : w.roster.Sublist s.machine.world.roster) : Continues s (s.inWorld w) :=
  ⟨rfl, thread, roster, id, .inl⟩

theorem unlogged (s : Session σ) : Continues s s.unlogged := ⟨rfl, rfl, .refl _, id, .inl⟩

end Continues

section

variable {s s' : Session σ}

theorem Occurs.continues {x : Occurrence} (h : s.Occurs x s') : s.Continues s' := by
  cases h with
  | ticked _ => exact (Continues.of_posts s.posts_tick).trans (.unlogged _)
  | @dispatched e _ _ => exact (Continues.of_posts (s.posts_dispatchNow e)).trans (.unlogged _)
  | departed a => exact .of_posts (s.posts_depart a)
  | collected =>
      refine .inWorld (Playback.onTickThread_drain _ _) ?_
      rw [World.roster, Playback.actors_drain]
      exact .refl _
  | removed a => exact .inWorld rfl (World.roster_removeActor _ a)

theorem Follows.continues {l : List Occurrence} (h : s.Follows l s') : s.Continues s' := by
  induction h with
  | nil s => exact .refl s
  | cons first _ ih => exact first.continues.trans ih

theorem Occurs.tick {x : Occurrence} (h : s.Occurs x s') :
    s'.machine.agenda.tick = s.machine.agenda.tick + x.ticks := by
  cases h with
  | ticked _ => exact s.posts_tick.machine.tick
  | @dispatched e _ _ => exact (s.posts_dispatchNow e).machine.tick
  | departed a => exact (s.posts_depart a).machine.tick
  | collected => rfl
  | removed a => rfl

/-- The counter moves on with the ticks of a course. -/
theorem Follows.tick {l : List Occurrence} (h : s.Follows l s') :
    s'.machine.agenda.tick = s.machine.agenda.tick + (l.map Occurrence.ticks).sum := by
  induction h with
  | nil s => rfl
  | cons first _ ih => rw [ih, first.tick, List.map_cons, List.sum_cons, Nat.add_assoc]

/-- Messages are taken under the names of their receivers. -/
theorem Follows.names {l : List Occurrence} (h : s.Follows l s') :
    ∀ r ∈ l.flatMap Occurrence.taken, (r.actor, r.name) ∈ s.machine.world.roster := by
  induction h with
  | nil s => exact fun r mem => nomatch mem
  | @cons s s' s'' x l first _ ih =>
      intro r mem
      rcases List.mem_append.mp mem with mem | mem
      · cases first with
        | collected => exact Playback.names_drain _ _ r mem
        | ticked _ => cases mem
        | dispatched _ => cases mem
        | departed _ => cases mem
        | removed _ => cases mem
      · exact first.continues.roster.subset (ih r mem)

end

/-! ## No message is lost -/

/-- A course on which no message is lost: what an actor has not read at first and what reaches the actor
is what is taken from the mailbox and what is not read at last. -/
structure Course (s : Session σ) (l : List Occurrence) (s' : Session σ) : Prop where
  /-- This is done. -/
  follows : s.Follows l s'
  /-- Nothing is lost, nothing is taken twice, and the order is kept. -/
  conserves : ∀ a, s.machine.world.unread a ++ Delivery.reaching a (l.flatMap Occurrence.sent) =
    Relay.for_ a (l.flatMap Occurrence.taken) ++ s'.machine.world.unread a

namespace Course

variable {s s' s'' : Session σ} {l l' : List Occurrence}

theorem nil (s : Session σ) : s.Course [] s := ⟨.nil s, fun _ => List.append_nil _⟩

theorem trans (h : s.Course l s') (h' : s'.Course l' s'') : s.Course (l ++ l') s'' where
  follows := h.follows.append h'.follows
  conserves a := by
    rw [List.flatMap_append, List.flatMap_append, Delivery.reaching_append, Relay.for_append,
      ← List.append_assoc, h.conserves a, List.append_assoc, h'.conserves a, List.append_assoc]

/-- Messages are sent, and none is taken. -/
theorem of_passes {x : Occurrence} (occurs : s.Occurs x s')
    (passes : s.machine.world.Passes x.sent s'.machine.world) (none : x.taken = []) :
    s.Course [x] s' where
  follows := .cons occurs (.nil s')
  conserves a := by
    rw [List.flatMap_singleton, List.flatMap_singleton, none]
    exact (passes.unread_eq a).symm

theorem ticked (s : Session σ) : ∃ sent, s.Course [.ticked sent] s.tick.unlogged := by
  obtain ⟨sent, passes⟩ := s.posts_tick.machine.world
  exact ⟨sent, .of_passes (.ticked passes) passes rfl⟩

theorem dispatched (s : Session σ) (e : Event) :
    ∃ sent, s.Course [.dispatched e sent] (s.dispatchNow e).unlogged := by
  obtain ⟨sent, passes⟩ := (s.posts_dispatchNow e).machine.world
  exact ⟨sent, .of_passes (.dispatched passes) passes rfl⟩

theorem departed (s : Session σ) (a : ActorId) : s.Course [.departed a] (s.depart a).2 := by
  refine .of_passes (.departed a) ?_ rfl
  rw [s.depart_world a]
  exact .refl _

omit [Archive σ] in
/-- Everything unread is in the mail, and then nothing is. -/
theorem unread_emptied (s : Session σ) (a : ActorId) :
    Relay.for_ a s.mail = s.machine.world.unread a ∧ s.emptied.machine.world.unread a = [] := by
  have online : (s.machine.world.actor? a).isSome = true ↔ a ∈ s.machine.world.actors.map Actor.id := by
    rw [World.isSome_actor?_iff, World.roster, List.map_map]
    exact Iff.rfl
  show Relay.for_ a (Playback.drain _ _).1 = _ ∧ (Playback.drain _ _).2.unread a = []
  unfold World.unread World.actor?
  rw [Playback.actors_drain, Playback.for_drain, Playback.messages_drain]
  grind [World.actor?]

theorem collected (s : Session σ) : s.Course [.collected s.mail] s.emptied where
  follows := .cons .collected (.nil _)
  conserves a := by
    obtain ⟨all, empty⟩ := unread_emptied s a
    have taken : [Occurrence.collected s.mail].flatMap Occurrence.taken = s.mail := List.append_nil _
    rw [taken, all, empty]
    rfl

/-- An actor who has read everything goes offline. -/
theorem removed (s : Session σ) {a : ActorId} (read : s.machine.world.unread a = []) :
    s.Course [.removed a] (s.without a) where
  follows := .cons (.removed a) (.nil _)
  conserves b := by
    show s.machine.world.unread b ++ [] = (s.machine.world.removeActor a).unread b
    rw [List.append_nil]
    by_cases same : b = a
    · subst same
      rw [read]
      -- the actor may have been offline before, and then there was nothing to read anyway
      have before : ((s.machine.world.removeActor b).actor? b).isSome = true →
          (s.machine.world.actor? b).isSome = true := by
        rw [World.isSome_actor?_iff, World.isSome_actor?_iff]
        exact fun here => ((World.roster_removeActor _ b).map _).subset here
      unfold World.unread at read ⊢
      split
      · next here =>
        rw [if_pos (before here)] at read
        exact read.symm
      · rfl
    · unfold World.unread
      rw [World.isSome_actor?_removeActor_of_ne _ same]
      rfl

end Course

/-! ## Departures -/

/-- An actor is offline, and nothing of the actor is left in a session: no script and no line that waits,
nothing that is marked as changed, no slot, and no work that has not been told to stop. -/
structure HasLeft (s : Session σ) (a : ActorId) : Prop where
  /-- The actor is offline. -/
  offline : s.machine.world.actor? a = none
  /-- Nothing waits to be done on the actor's behalf. -/
  away : Chronicle.Away False a ⟨s, .calm, []⟩
  /-- No line waits for an event. -/
  lines : s.handlers.entriesOf a = []
  /-- Nothing waits to be saved. -/
  saved : s.dirty.contains a = false

/-- An actor departs, the messages are taken, and the actor goes offline: then the actor has left. -/
theorem Follows.hasLeft {s s' : Session σ} {a : ActorId} {relays : List Relay}
    (h : s.Follows [.departed a, .collected relays, .removed a] s') : s'.HasLeft a := by
  have offline : s'.machine.world.actor? a = none := by
    obtain ⟨s₂, -, last⟩ := h.split (l := [.departed a, .collected relays])
    rcases last with _ | ⟨⟨⟩, ⟨⟩⟩
    exact s₂.machine.world.actor?_removeActor_self a
  have away : Chronicle.Away False a (Chronicle.departed s [] a) :=
    Chronicle.away_departed s [] a nofun
  have handlers : (s.depart a).2.handlers.entriesOf a = [] := by
    rw [depart_eq]
    exact s.handlers.entriesOf_unregister_self a
  have dirty : (s.depart a).2.dirty.contains a = false := by
    rw [depart_eq]
    exact Table.contains_eq_false_iff.mpr ((Table.get?_erase ..).trans (if_pos rfl))
  rcases h with _ | ⟨⟨⟩, _ | ⟨⟨⟩, _ | ⟨⟨⟩, ⟨⟩⟩⟩⟩
  exact ⟨offline, ⟨away.slot, away.loops, away.bodies, away.lines, ⟨away.scripts.script, nofun⟩⟩,
    handlers, dirty⟩

end Session

end Blockwork
