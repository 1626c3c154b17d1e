import Blockwork.Proofs.Machine.Posting
import Blockwork.Proofs.Session.Loops

/-!
# What events and ticks do to the world

Lines, delayed bodies and iterations of loops do to the world what runs do, and failures are reported by
messages.  So this is also all that an event does, and a tick: a tick moves the counter on by one besides.
The departure of an actor leaves the world as it is; the actor is still online.
-/

namespace Blockwork

/-- A poll. -/
theorem LoopTask.posts_poll (t : LoopTask) (m : Machine) (limits : Limits) :
    m.Posts limits (t.poll m limits).2.2 := by
  have iterates : Run.Posts limits
      (Loop.iterate t.context.frame (Interpreter.run limits t.context.frame t.body) t.cursor) :=
    Run.Posts.closed.iterate t.context.frame (Interpreter.posts_run limits t.context.frame t.body) t.cursor
  have released (t : LoopTask) (m : Machine) (o : Outcome) : m.Posts limits (t.finish m o).2.2 :=
    .of_eq rfl rfl rfl
  have polled := t.polled m limits
  generalize t.poll m limits = result at polled ⊢
  cases polled with
  | idle _ => exact released t m .success
  | goesOn _ ran => exact iterates.of_run ran
  | ends _ ran => exact (iterates.of_run ran).trans (released _ _ _)

/-- The machine sends messages and moves actors, and the limits stay. -/
structure Session.Posts {σ : Type} (s s' : Session σ) : Prop where
  /-- The limits stay. -/
  limits : s'.limits = s.limits
  /-- Nothing else happens to the world. -/
  machine : s.machine.Posts s.limits s'.machine

namespace Session

variable {σ : Type}

namespace Posts

variable {s s' s'' : Session σ}

@[refl] theorem refl (s : Session σ) : Posts s s := ⟨rfl, .refl s.machine⟩

theorem trans (h : Posts s s') (h' : Posts s' s'') : Posts s s'' := by
  have later := h'.machine
  rw [h.limits] at later
  exact ⟨h'.limits.trans h.limits, h.machine.trans later⟩

/-- One thing after another. -/
theorem foldl {α : Type} {step : Session σ → α → Session σ} (each : ∀ s a, Posts s (step s a))
    (l : List α) (s : Session σ) : Posts s (l.foldl step s) := by
  induction l generalizing s with
  | nil => exact .refl s
  | cons a l ih => exact (each s a).trans (ih _)

/-- A unit of work. -/
theorem of_worksFor {owner : ActorId} (works : s.WorksFor owner s')
    (machine : s.machine.Posts s.limits s'.machine) : Posts s s' :=
  ⟨works.limits, machine⟩

end Posts

/-- A failure is reported by a message. -/
theorem posts_report (limits : Limits) (m : Machine) (actor : ActorId) (line : String) (o : Outcome) :
    m.Posts limits (report m actor line o) := by
  unfold report
  split
  · exact .of_passes ((World.Passes.refl m.world).send actor _) rfl rfl
  · exact .refl m

theorem posts_conclude (s : Session σ) (owner : ActorId) (c : Context) (o : Outcome) (m : Machine) :
    m.Posts s.limits (s.conclude owner c o m).machine := by
  rw [conclude_machine]
  exact posts_report s.limits m owner c.frame.line o

theorem posts_runHandler (s : Session σ) (h : Handler) (e : Event) : s.Posts (s.runHandler h e) := by
  refine .of_worksFor (s.runHandler_worksFor h e) ?_
  unfold runHandler
  split
  · exact .refl _
  split
  · exact .refl _
  split
  · rw [commit_machine]
    refine Machine.Posts.trans ?_ (posts_report s.limits _ _ _ _)
    refine Machine.Posts.trans ?_ (Context.posts_runLine _ _ _ _)
    exact .of_eq rfl rfl rfl
  · exact .refl _

theorem posts_runDelayed (s : Session σ) (d : Delayed) : s.Posts (s.runDelayed d) :=
  .of_worksFor (s.runDelayed_worksFor d)
    ((Context.posts_runBlocks _ _ _ _).trans (s.posts_conclude _ _ _ _))

theorem posts_pollLoop (s : Session σ) (t : LoopTask) : s.Posts (s.pollLoop t) := by
  refine .of_worksFor (s.pollLoop_worksFor t) ?_
  have polls := { t with context := s.refreshed t.context }.posts_poll s.machine s.limits
  unfold pollLoop
  dsimp only
  split
  · exact polls.trans (s.posts_conclude _ _ _ _)
  · refine Machine.Posts.trans (polls.trans ?_) (s.posts_conclude _ _ _ _)
    exact .of_eq rfl rfl rfl

theorem posts_runDelays (s : Session σ) : s.Posts s.runDelays := by
  have taken : s.Posts { s with machine := { s.machine with agenda := s.machine.agenda.takeDelays.2 } } :=
    ⟨rfl, .of_eq rfl rfl rfl⟩
  exact taken.trans (.foldl posts_runDelayed _ _)

theorem posts_pollLoops (s : Session σ) : s.Posts s.pollLoops := by
  have taken : s.Posts { s with machine := { s.machine with agenda := s.machine.agenda.takeLoops.2 } } :=
    ⟨rfl, .of_eq rfl rfl rfl⟩
  exact taken.trans (.foldl posts_pollLoop _ _)

variable [Archive σ]

theorem ensureLoaded_limits {s s' : Session σ} {owner : ActorId} {found : Bool}
    (h : s.ensureLoaded owner = .ok (found, s')) : s'.limits = s.limits := by
  rcases ensureLoaded_eq_ok_iff.mp h with ⟨_, -, -, rfl⟩ | ⟨-, -, -, rfl⟩ | ⟨_, _, -, -, -, rfl⟩
  · rfl
  · rfl
  · rfl

theorem posts_dispatchNow (s : Session σ) (e : Event) : s.Posts (s.dispatchNow e) := by
  unfold dispatchNow
  cases loading : s.ensureLoaded e.actor with
  | error _ => exact .refl s
  | ok result =>
      have loaded : s.Posts result.2 :=
        ⟨ensureLoaded_limits loading, by rw [ensureLoaded_machine loading]⟩
      exact loaded.trans (.foldl (fun s h => s.posts_runHandler h e) _ _)

/-- On the thread that ticks, an event is handed over at once. -/
theorem dispatch_eq_dispatchNow {s : Session σ} (here : s.machine.world.onTickThread = true) (e : Event) :
    s.dispatch e = s.dispatchNow e :=
  if_pos here

/-- A tick moves the counter on by one, and does what events do. -/
theorem posts_tick (s : Session σ) :
    Posts { s with machine := { s.machine with agenda := s.machine.agenda.advance } } s.tick := by
  have emptied : s.Posts { s with inbox := [] } := ⟨rfl, .refl s.machine⟩
  have events := emptied.trans (.foldl posts_dispatchNow s.inbox { s with inbox := [] })
  have next (s' : Session σ) (posts : s.Posts s') :
      Posts { s with machine := { s.machine with agenda := s.machine.agenda.advance } }
        { s' with machine := { s'.machine with agenda := s'.machine.agenda.advance } } :=
    ⟨posts.limits, posts.machine.advance⟩
  exact ((next _ events).trans (posts_runDelays _)).trans (posts_pollLoops _)

theorem posts_depart (s : Session σ) (a : ActorId) : s.Posts (s.depart a).2 := by
  rw [depart_eq]
  exact ⟨rfl, (Machine.Posts.requestStop s.machine a).trans (.of_eq rfl rfl rfl)⟩

/-- A departure leaves the world. -/
theorem depart_world (s : Session σ) (a : ActorId) : (s.depart a).2.machine.world = s.machine.world := by
  rw [depart_eq]
  show (s.machine.requestStop a).2.world = s.machine.world
  rcases s.machine.requestStop_cases a with ⟨-, same⟩ | ⟨handle, -, same⟩ <;> rw [same]

end Session

end Blockwork
