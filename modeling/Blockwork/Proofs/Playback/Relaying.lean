import Blockwork.Proofs.Playback.Course

/-!
# Ticks of a playback

A tick of a playback hands over the events that are due, in the order of the timeline, and leaves the rest
of the timeline as it is.  When an actor has quit, the actor has left the session and is offline before
the next event.  And no message is lost to that, over however many ticks: whatever is sent to an actor who
is online is relayed once, in the order in which it was sent (`Playback.relays_once`).

A calculation under limits that contradict themselves breaks a playback off in the middle of a tick.  The
rest of the timeline has not been played then, and a quitter may still be around.  With other limits this
does not happen (`Playback.isBroken_steps`).

## What is load-bearing

* `Session.Plays` is a course with everything about it that a playback shows: the number of ticks, the
  events that are handed over and the messages that are taken.  One statement for each part of a tick says
  which course that part takes, and `Session.Plays.trans` puts the courses together.
* An actor goes offline only when the messages have just been taken (`Playback.plays_letGo`).
-/

namespace Blockwork

/-! ## Timelines -/

/-- Events in the order of their ticks, where events of one tick keep their order. -/
structure TimedEvent.InOrder (events timeline : List TimedEvent) : Prop where
  /-- They are the same events. -/
  perm : timeline.Perm events
  /-- Earlier ticks come first. -/
  sorted : timeline.Pairwise fun t u => t.tick ≤ u.tick
  /-- The order within a tick is kept. -/
  stable : ∀ n, (timeline.filter fun t => t.tick == n) = events.filter fun t => t.tick == n

/-- The timeline of a scenario has the events in order. -/
theorem Scenario.inOrder_of_timeline {s : Scenario} {timeline : List TimedEvent}
    (played : s.timeline = .ok timeline) :
    ∃ events, s.events.mapM s.resolve = .ok events ∧ TimedEvent.InOrder events timeline := by
  unfold Scenario.timeline at played
  cases resolved : s.events.mapM s.resolve with
  | error e =>
      rw [resolved] at played
      cases played
  | ok events =>
      rw [resolved] at played
      cases played
      have trans (a b c : TimedEvent) (h : decide (a.tick ≤ b.tick) = true)
          (h' : decide (b.tick ≤ c.tick) = true) : decide (a.tick ≤ c.tick) = true := by
        grind
      have total (a b : TimedEvent) : (decide (a.tick ≤ b.tick) || decide (b.tick ≤ a.tick)) = true := by
        grind
      have perm := List.mergeSort_perm events fun a b => decide (a.tick ≤ b.tick)
      refine ⟨events, rfl, perm, ?_, fun n => ?_⟩
      · exact (List.pairwise_mergeSort trans total events).imp of_decide_eq_true
      · -- events of one tick are sorted already, so sorting leaves them in their order
        have within : (events.filter fun t => t.tick == n).Pairwise
            fun a b => decide (a.tick ≤ b.tick) = true := by
          refine List.pairwise_of_forall_mem_list fun a ha b hb => ?_
          have := (List.mem_filter.mp ha).2
          have := (List.mem_filter.mp hb).2
          grind
        have kept := (List.sublist_mergeSort trans total within List.filter_sublist).filter
          fun t => t.tick == n
        rw [List.filter_filter] at kept
        simp only [Bool.and_self] at kept
        exact (kept.eq_of_length (perm.filter _).length_eq.symm).symm

/-- A playback is on the thread that ticks, and its timeline is sorted. -/
structure Playback.Ready {σ : Type} (p : Playback σ) : Prop where
  /-- It is on the thread that ticks. -/
  thread : p.session.machine.world.onTickThread = true
  /-- Earlier events come first. -/
  sorted : p.timeline.Pairwise fun t u => t.tick ≤ u.tick

/-- A playback that is set up is ready. -/
theorem Setup.ready_of_open {s : Setup} {p : Playback FolderArchive} (opened : s.open_ = .ok p) :
    p.Ready := by
  unfold open_ at opened
  dsimp only at opened
  split at opened
  · cases opened
  split at opened
  · cases opened
  · next scenario _ =>
    split at opened
    · cases opened
    · next timeline played =>
      cases opened
      obtain ⟨events, -, inOrder⟩ := Scenario.inOrder_of_timeline played
      exact ⟨scenario.onTickThread_world, inOrder.sorted⟩

/-! ## Quitters -/

/-- After an event in which an actor quits, and before anything else, the actor departs, the messages are
taken, and the actor goes offline. -/
def LetsGo (l : List Occurrence) : Prop :=
  ∀ before e sent after, l = before ++ .dispatched e sent :: after → e.kind = .quit →
    ∃ relays rest, after = .departed e.actor :: .collected relays :: .removed e.actor :: rest

namespace LetsGo

/-- No event is handed over. -/
theorem of_none {l : List Occurrence} (none : l.filterMap Occurrence.event? = []) : LetsGo l := by
  rintro before e sent after rfl
  simp [Occurrence.event?] at none

theorem append {l l' : List Occurrence} (h : LetsGo l) (h' : LetsGo l') : LetsGo (l ++ l') := by
  intro before e sent after same quits
  rcases List.append_eq_append_iff.mp same with ⟨middle, rfl, rfl⟩ | ⟨middle, rfl, later⟩
  · exact h' middle e sent after rfl quits
  · cases middle with
    | nil => exact h' [] e sent after later.symm quits
    | cons x middle =>
        obtain ⟨rfl, rfl⟩ := List.cons.inj later
        obtain ⟨relays, rest, rfl⟩ := h before e sent middle rfl quits
        exact ⟨relays, rest ++ l', rfl⟩

/-- Nobody quits. -/
theorem stays {e : Event} (stays : e.kind ≠ .quit) (sent : List Delivery) :
    LetsGo [.dispatched e sent] := by
  intro before e' sent' after same quits
  rcases List.cons_eq_append_iff.mp same with ⟨rfl, first⟩ | ⟨middle, rfl, later⟩
  · cases first
    exact absurd quits stays
  · simp at later

/-- Somebody quits. -/
theorem quits (e : Event) (sent : List Delivery) (relays : List Relay) :
    LetsGo [.dispatched e sent, .departed e.actor, .collected relays, .removed e.actor] := by
  intro before e' sent' after same _
  rcases List.cons_eq_append_iff.mp same with ⟨rfl, first⟩ | ⟨middle, rfl, later⟩
  · cases first
    exact ⟨relays, [], rfl⟩
  · have inside : Occurrence.dispatched e' sent' ∈
        [.departed e.actor, .collected relays, .removed e.actor] := by
      rw [later]
      exact List.mem_append_right _ (List.mem_cons_self ..)
    simp at inside

end LetsGo

namespace Session

variable {σ : Type} [Archive σ] {s s' s'' : Session σ} {l l' : List Occurrence}

/-- Somebody who quits has left before the next event. -/
theorem Follows.left (h : s.Follows l s') (letsGo : LetsGo l) {before after : List Occurrence}
    {e : Event} {sent : List Delivery} (same : l = before ++ .dispatched e sent :: after)
    (quits : e.kind = .quit) :
    ∃ relays rest q, after = .departed e.actor :: .collected relays :: .removed e.actor :: rest ∧
      s.Follows
        (before ++ [.dispatched e sent, .departed e.actor, .collected relays, .removed e.actor]) q ∧
      q.HasLeft e.actor ∧ q.Follows rest s' := by
  obtain ⟨relays, rest, rfl⟩ := letsGo before e sent after same quits
  have regrouped : l = (before ++ [.dispatched e sent]) ++
      ([.departed e.actor, .collected relays, .removed e.actor] ++ rest) := by
    rw [same, List.append_assoc]
    rfl
  rw [regrouped] at h
  obtain ⟨s₁, first, later⟩ := h.split
  obtain ⟨q, leaves, last⟩ := later.split
  refine ⟨relays, rest, q, rfl, ?_, leaves.hasLeft, last⟩
  have whole := first.append leaves
  rwa [List.append_assoc] at whole

/-- A course with the number of its ticks, the events that are handed over and the messages that are
taken. -/
structure Plays (s : Session σ) (l : List Occurrence) (n : Nat) (events : List Event)
    (relayed : List Relay) (s' : Session σ) : Prop where
  /-- No message is lost. -/
  course : s.Course l s'
  /-- The ticks. -/
  ticks : (l.map Occurrence.ticks).sum = n
  /-- The events. -/
  handed : l.filterMap Occurrence.event? = events
  /-- The messages. -/
  taken : l.flatMap Occurrence.taken = relayed

namespace Plays

variable {n n' : Nat} {events events' : List Event} {relayed relayed' : List Relay}

theorem nil (s : Session σ) : s.Plays [] 0 [] [] s := ⟨.nil s, rfl, rfl, rfl⟩

theorem trans (h : s.Plays l n events relayed s') (h' : s'.Plays l' n' events' relayed' s'') :
    s.Plays (l ++ l') (n + n') (events ++ events') (relayed ++ relayed') s'' where
  course := h.course.trans h'.course
  ticks := by rw [List.map_append, List.sum_append, h.ticks, h'.ticks]
  handed := by rw [List.filterMap_append, h.handed, h'.handed]
  taken := by rw [List.flatMap_append, h.taken, h'.taken]

theorem continues (h : s.Plays l n events relayed s') : s.Continues s' := h.course.follows.continues

theorem tick (h : s.Plays l n events relayed s') :
    s'.machine.agenda.tick = s.machine.agenda.tick + n := by
  rw [h.course.follows.tick, h.ticks]

end Plays

end Session

namespace Playback

variable {σ : Type} [Archive σ]

/-! ## One event -/

/-- The messages are taken. -/
theorem plays_collectMessages (p : Playback σ) :
    p.session.Plays [.collected p.collectMessages.1] 0 [] p.collectMessages.1
      p.collectMessages.2.session :=
  ⟨.collected p.session, rfl, rfl, List.append_nil _⟩

/-- An actor departs, and goes offline after the messages have been taken. -/
theorem plays_letGo (p : Playback σ) (a : ActorId) :
    p.session.Plays [.departed a, .collected (p.letGo a).1, .removed a] 0 [] (p.letGo a).1
      (p.letGo a).2.session := by
  -- the session goes on in the same way, whether or not the script can be saved
  have same : (p.letGo a).1 = (p.session.depart a).2.mail ∧
      (p.letGo a).2.session = (p.session.depart a).2.emptied.without a := by
    unfold letGo
    dsimp only
    cases (p.session.depart a).1 with
    | ok _ => exact ⟨rfl, rfl⟩
    | error e => exact ⟨rfl, rfl⟩
  have read := (Session.Course.unread_emptied (p.session.depart a).2 a).2
  rw [same.1, same.2]
  exact ⟨((Session.Course.departed p.session a).trans (.collected _)).trans (.removed _ read), rfl, rfl,
    List.append_nil _⟩

/-- An event is handed over, and an actor who quits is let go. -/
theorem plays_happen (p : Playback σ) (here : p.session.machine.world.onTickThread = true)
    (e : Event) : ∃ l, p.session.Plays l 0 [e] (p.happen e).1 (p.happen e).2.session ∧
      ((p.happen e).2.isBroken = false → LetsGo l) := by
  obtain ⟨sent, course⟩ := Session.Course.dispatched p.session e
  have dispatched : p.session.Plays [.dispatched e sent] 0 [e] [] (p.session.dispatchNow e).unlogged :=
    ⟨course, rfl, rfl, rfl⟩
  unfold happen
  rw [Session.dispatch_eq_dispatchNow here]
  dsimp only
  split
  · next goes =>
    have left := plays_letGo { p with session := p.session.dispatchNow e }.collectEffects e.actor
    exact ⟨_, dispatched.trans left, fun _ => .quits e sent _⟩
  · next goesOn =>
    refine ⟨_, dispatched, fun unbroken => .stays ?_ sent⟩
    intro quits
    rw [quits, unbroken] at goesOn
    exact goesOn rfl

/-! ## One tick -/

/-- Events are handed over one after another, until the next one is not due. -/
theorem plays_play (now : Nat) (timeline : List TimedEvent) (p : Playback σ)
    (here : p.session.machine.world.onTickThread = true) :
    ∃ l due, p.session.Plays l 0 (due.map TimedEvent.event) (play now timeline p).1
        (play now timeline p).2.session ∧
      timeline = due ++ (play now timeline p).2.timeline ∧ (∀ t ∈ due, t.tick ≤ now) ∧
      ((play now timeline p).2.isBroken = false →
        LetsGo l ∧ ∀ t ∈ (play now timeline p).2.timeline.head?, now < t.tick) := by
  induction timeline generalizing p with
  | nil => exact ⟨[], [], .nil p.session, rfl, nofun, fun _ => ⟨.of_none rfl, nofun⟩⟩
  | cons t rest ih =>
      unfold play
      split
      · next stop =>
        refine ⟨[], [], .nil p.session, rfl, nofun, fun unbroken => ⟨.of_none rfl, ?_⟩⟩
        have whole : p.isBroken = false := unbroken
        rintro _ ⟨⟩
        simpa [whole] using stop
      · next go =>
        obtain ⟨l, first, quits⟩ := plays_happen p here t.event
        obtain ⟨l', due, later, same, early, ends⟩ := ih (p.happen t.event).2
          (first.continues.thread.trans here)
        refine ⟨l ++ l', t :: due, first.trans later, congrArg (t :: ·) same, ?_, fun unbroken => ?_⟩
        · rintro u (_ | ⟨_, mem⟩)
          · simp at go
            exact go.1
          · exact early u mem
        · -- a contradiction noted on the way would still be there
          have before : (p.happen t.event).2.isBroken = false :=
            Bool.eq_false_iff.mpr fun broken =>
              Bool.eq_false_iff.mp unbroken (later.continues.stays broken)
          exact ⟨(quits before).append (ends unbroken).1, (ends unbroken).2⟩

/-- What a tick does to a playback. -/
theorem plays_step (p : Playback σ) (ready : p.Ready) :
    ∃ l due, p.session.Plays l 1 (due.map TimedEvent.event) p.step.1 p.step.2.session ∧
      p.timeline = due ++ p.step.2.timeline ∧ (∀ t ∈ due, t.tick ≤ p.step.2.tick) ∧
      (p.step.2.isBroken = false → LetsGo l ∧ ∀ t ∈ p.step.2.timeline, p.step.2.tick < t.tick) := by
  obtain ⟨sent, course⟩ := Session.Course.ticked p.session
  have ticked : p.session.Plays [.ticked sent] 1 [] [] p.session.tick.unlogged := ⟨course, rfl, rfl, rfl⟩
  let q : Playback σ := { p with session := p.session.tick }.collectEffects
  obtain ⟨l, due, played, same, early, ends⟩ := plays_play q.tick p.timeline q
    (ticked.continues.thread.trans ready.thread)
  have whole := (ticked.trans played).trans (plays_collectMessages (play q.tick p.timeline q).2)
  rw [List.nil_append, List.append_nil, List.nil_append] at whole
  have now : p.step.2.tick = q.tick := whole.tick.trans ticked.tick.symm
  refine ⟨_, due, whole, same, fun t mem => now ▸ early t mem, fun unbroken => ?_⟩
  obtain ⟨letsGo, next⟩ := ends unbroken
  refine ⟨((LetsGo.of_none rfl).append letsGo).append (.of_none rfl), ?_⟩
  have later : p.step.2.timeline.Pairwise fun t u => t.tick ≤ u.tick :=
    ready.sorted.sublist (same ▸ List.sublist_append_right ..)
  rw [now]
  change ∀ t ∈ p.step.2.timeline.head?, q.tick < t.tick at next
  cases rest : p.step.2.timeline with
  | nil => exact nofun
  | cons u rest' =>
      rw [rest] at later next
      rintro t (_ | ⟨_, mem⟩)
      · exact next u rfl
      · exact Nat.lt_of_lt_of_le (next u rfl) (List.rel_of_pairwise_cons later mem)

/-- Afterwards nothing is unread. -/
theorem unread_step (p : Playback σ) (a : ActorId) :
    p.step.2.session.machine.world.unread a = [] :=
  (Session.Course.unread_emptied _ a).2

/-- A playback that has ticked can tick again. -/
theorem Ready.step {p : Playback σ} (ready : p.Ready) : p.step.2.Ready := by
  obtain ⟨l, due, plays, same, -⟩ := plays_step p ready
  exact ⟨plays.continues.thread.trans ready.thread,
    ready.sorted.sublist (same ▸ List.sublist_append_right ..)⟩

/-! ## Many ticks -/

/-- A number of ticks, with the messages that are relayed on them. -/
def steps : Nat → Playback σ → List Relay × Playback σ
  | 0, p => ([], p)
  | n + 1, p =>
    let (relayed, p) := p.step
    let (more, p) := steps n p
    (relayed ++ more, p)

theorem Ready.steps {p : Playback σ} (ready : p.Ready) (n : Nat) : (p.steps n).2.Ready := by
  induction n generalizing p with
  | zero => exact ready
  | succ n ih => exact ih ready.step

/-- What a number of ticks do to a playback. -/
theorem plays_steps (n : Nat) (p : Playback σ) (ready : p.Ready) :
    ∃ l due, p.session.Plays l n (due.map TimedEvent.event) (p.steps n).1 (p.steps n).2.session ∧
      p.timeline = due ++ (p.steps n).2.timeline := by
  induction n generalizing p with
  | zero => exact ⟨[], [], .nil p.session, rfl⟩
  | succ n ih =>
      obtain ⟨l, due, first, same, -⟩ := plays_step p ready
      obtain ⟨l', due', rest, same'⟩ := ih p.step.2 ready.step
      refine ⟨l ++ l', due ++ due', ?_, ?_⟩
      · have whole := first.trans rest
        rwa [← List.map_append, Nat.add_comm 1 n] at whole
      · rw [List.append_assoc, same, same']
        rfl

/-- After some ticks nothing is unread. -/
theorem unread_steps {n : Nat} (some : n ≠ 0) (p : Playback σ) (a : ActorId) :
    (p.steps n).2.session.machine.world.unread a = [] := by
  induction n generalizing p with
  | zero => exact absurd rfl some
  | succ n ih =>
      rcases Nat.eq_zero_or_pos n with rfl | more
      · exact unread_step p a
      · exact ih (Nat.ne_of_gt more) p.step.2

/-- With limits that do not contradict themselves, a playback is not broken off. -/
theorem isBroken_steps {p : Playback σ} (ready : p.Ready) (unbroken : p.isBroken = false)
    (sound : ¬ p.session.limits.Contradictory) (n : Nat) : (p.steps n).2.isBroken = false := by
  obtain ⟨l, due, plays, -⟩ := plays_steps n p ready
  refine Bool.eq_false_iff.mpr fun broken => ?_
  rcases plays.continues.sound broken with noted | negative
  · exact Bool.eq_false_iff.mp unbroken noted
  · exact sound negative

/-- **Every due event happens once, and no message is lost.**  For a playback on the thread that ticks,
with a sorted timeline:

* A tick that is not broken off hands over the events of the timeline that are due on the new tick, in
  order and each once, and leaves the rest as it is.  Whoever quits has departed and is offline before
  anything else is done.
* After any number of ticks, what an actor had not read at first, followed by what has been sent to the
  actor while online, is what has been relayed from the actor's mailbox, in the same order.  Nothing is
  left unread, also if the actor has quit in the meantime.  Messages are relayed under the names of their
  receivers, and the playback is ready for more.
* No tick is broken off if it is not so at first and the limits do not contradict themselves.
* The timeline of a scenario is sorted, and events of one tick keep the order in which they are written. -/
theorem relays_once (p : Playback σ) (ready : p.Ready) :
    (p.step.2.isBroken = false → p.step.2.tick = p.tick + 1 ∧
      ∃ due l, p.timeline = due ++ p.step.2.timeline ∧ (∀ t ∈ due, t.tick ≤ p.step.2.tick) ∧
        (∀ t ∈ p.step.2.timeline, p.step.2.tick < t.tick) ∧
        p.session.Follows l p.step.2.session ∧
        l.filterMap Occurrence.event? = due.map TimedEvent.event ∧
        l.flatMap Occurrence.taken = p.step.1 ∧
        ∀ before e sent after, l = before ++ .dispatched e sent :: after → e.kind = .quit →
          ∃ relays rest q, after = .departed e.actor :: .collected relays :: .removed e.actor :: rest ∧
            p.session.Follows
              (before ++ [.dispatched e sent, .departed e.actor, .collected relays, .removed e.actor]) q ∧
            q.HasLeft e.actor ∧ q.Follows rest p.step.2.session) ∧
    (∀ n, (p.steps n).2.Ready ∧ (p.steps n).2.tick = p.tick + n ∧
      ∃ due l, p.timeline = due ++ (p.steps n).2.timeline ∧
        p.session.Follows l (p.steps n).2.session ∧
        l.filterMap Occurrence.event? = due.map TimedEvent.event ∧
        (∀ r ∈ (p.steps n).1, (r.actor, r.name) ∈ p.session.machine.world.roster) ∧
        ∀ a, p.session.machine.world.unread a ++ Delivery.reaching a (l.flatMap Occurrence.sent) =
            Relay.for_ a (p.steps n).1 ++ (p.steps n).2.session.machine.world.unread a ∧
          (n ≠ 0 → (p.steps n).2.session.machine.world.unread a = [])) ∧
    (p.isBroken = false → ¬ p.session.limits.Contradictory → ∀ n, (p.steps n).2.isBroken = false) ∧
    (∀ (s : Scenario) timeline, s.timeline = .ok timeline →
      ∃ events, s.events.mapM s.resolve = .ok events ∧ TimedEvent.InOrder events timeline) := by
  refine ⟨fun unbroken => ?_, fun n => ?_, fun unbroken sound n => ?_, fun s timeline played => ?_⟩
  · obtain ⟨l, due, plays, same, early, rest⟩ := plays_step p ready
    obtain ⟨letsGo, late⟩ := rest unbroken
    refine ⟨plays.tick, due, l, same, early, late, plays.course.follows, plays.handed, plays.taken, ?_⟩
    intro before e sent after split quits
    exact plays.course.follows.left letsGo split quits
  · obtain ⟨l, due, plays, same⟩ := plays_steps n p ready
    refine ⟨ready.steps n, plays.tick, due, l, same, plays.course.follows, plays.handed, ?_,
      fun a => ⟨?_, fun some => unread_steps some p a⟩⟩
    · rw [← plays.taken]
      exact plays.course.follows.names
    · rw [← plays.taken]
      exact plays.course.conserves a
  · exact isBroken_steps ready unbroken sound n
  · exact Scenario.inOrder_of_timeline played

/-! ## A farewell -/

/-- A script with a line that says good-bye when its owner quits. -/
def farewellScript : Script :=
  { ownerId := ⟨1⟩
    ownerName := "alex"
    lastModified := ⟨0, 0⟩
    lines := [{
      name := "farewell"
      blocks := [
        ⟨⟨2⟩, .event (some .quit), []⟩,
        ⟨⟨3⟩, .message (some (.text "Bye %player%")), []⟩] }] }

/-- The owner of the script, who is online. -/
def alex : Actor :=
  { id := ⟨1⟩
    name := "alex"
    location := { world := "world", x := 0, y := 64, z := 0 } }

/-- The owner quits. -/
def alexQuits : Event := { kind := .quit, actor := ⟨1⟩ }

/-- A world with the owner only. -/
def visited : World where
  actors := [alex]
  distinct := List.nodup_singleton _

/-- A playback on whose first tick the owner of the script quits. -/
def farewell : Playback MemoryArchive :=
  { session := (Session.start {} visited .refusing {}).holding farewellScript
    timeline := [⟨1, alexQuits⟩] }

/-- The good-bye is relayed, although the owner has left by then. -/
theorem relays_once_farewell : farewell.step.1 = [⟨⟨1⟩, "alex", "Bye alex"⟩] ∧
    ∃ before sent relays rest q,
      farewell.session.Follows
        (before ++ [.dispatched alexQuits sent, .departed ⟨1⟩, .collected relays, .removed ⟨1⟩]) q ∧
      q.HasLeft ⟨1⟩ ∧ q.Follows rest farewell.step.2.session := by
  have ready : farewell.Ready := ⟨rfl, List.pairwise_singleton _ _⟩
  have unbroken : farewell.step.2.isBroken = false := by decide +kernel
  have empty : farewell.step.2.timeline = [] := List.isEmpty_iff.mp (by decide +kernel)
  obtain ⟨-, due, l, same, -, -, -, handed, -, quits⟩ := (relays_once farewell ready).1 unbroken
  rw [empty, List.append_nil] at same
  have event : alexQuits ∈ l.filterMap Occurrence.event? := by
    rw [handed, ← same]
    exact List.mem_singleton_self _
  obtain ⟨x, inside, isQuit⟩ := List.mem_filterMap.mp event
  cases x with
  | dispatched e sent =>
      cases isQuit
      obtain ⟨before, after, split⟩ := List.append_of_mem inside
      obtain ⟨relays, rest, q, -, leaves, left, later⟩ := quits before _ sent after split rfl
      exact ⟨by decide +kernel, before, sent, relays, rest, q, leaves, left, later⟩
  | ticked _ | departed _ | collected _ | removed _ => cases isQuit

end Playback

end Blockwork
