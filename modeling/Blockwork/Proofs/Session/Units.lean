import Blockwork.Proofs.Table
import Blockwork.Session

/-!
# What a unit of work can touch

A line started by an event, a delayed body and an iteration of a loop all end in the same way: the
variables are committed to one script, the script is marked as changed and a failure is reported.
`Session.WorksFor` is the frame of such a unit.  Handlers, archive and inbox stay as they are, and
so does every script but the one of the unit's owner, of which only the globals change.

A poll does one of three things, which `LoopTask.Polled` lists once for all proofs about polls.

Everything that an event or a tick does to scripts is a chain of such units, with at most the
loading of scripts in between.  `Session.Grows` is what is left of the frame along such a chain: no
script is taken away, and none is changed in anything but its globals.
-/

namespace Blockwork

/-! ## Polls -/

namespace LoopTask

/-- Whether a loop is at an end before its next iteration: its signal is raised or its actor gone. -/
def isOver (t : LoopTask) (m : Machine) : Bool :=
  m.signals.isRaised t.handle.signal || (m.world.actor? t.actor).isNone

/-- One iteration of a loop, with its result. -/
def iterate (t : LoopTask) (m : Machine) (limits : Limits) : Step × RunState :=
  (Loop.iterate t.context.frame (Interpreter.run limits t.context.frame t.body) t.cursor).run
    ⟨t.context.scope, m⟩

/-- What a poll can do. -/
inductive Polled (t : LoopTask) (m : Machine) (limits : Limits) :
    Poll × LoopTask × Machine → Prop where
  /-- The loop is ended without an iteration. -/
  | idle (ended : t.isOver m = true) : Polled t m limits (t.finish m .success)
  /-- The loop goes on after an iteration. -/
  | goesOn (live : t.isOver m = false) {c : Cursor} {st : RunState}
      (ran : t.iterate m limits = (.next c, st)) :
      Polled t m limits (.pending, { t with
        context := ⟨t.context.frame, st.scope⟩
        cursor := c
        nextTick := st.machine.agenda.tick + t.interval }, st.machine)
  /-- The loop ends with an iteration. -/
  | ends (live : t.isOver m = false) {o : Outcome} {st : RunState}
      (ran : t.iterate m limits = (.done o, st)) :
      Polled t m limits
        ({ t with context := ⟨t.context.frame, st.scope⟩ }.finish st.machine o.settled)

theorem polled (t : LoopTask) (m : Machine) (limits : Limits) :
    Polled t m limits (t.poll m limits) := by
  unfold poll
  split
  · next raised => exact .idle (by rw [isOver, raised, Bool.true_or])
  split
  · next gone => exact .idle (by rw [isOver, gone, Bool.or_true])
  · next quiet here =>
    have live : t.isOver m = false := by
      rw [isOver, Bool.or_eq_false_iff]
      exact ⟨Bool.eq_false_iff.mpr quiet, Bool.eq_false_iff.mpr here⟩
    dsimp only
    cases ran : t.iterate m limits with
    | mk step st =>
        rw [iterate] at ran
        rw [ran]
        cases step with
        | next c => exact .goesOn live ran
        | done o => exact .ends live ran

end LoopTask

namespace Session

variable {σ : Type}

/-- What is committed to a loaded script, whatever has happened to the machine. -/
theorem get?_commit_self {s : Session σ} {owner : ActorId} {script : Script}
    (loaded : s.scripts.get? owner = some script) (m : Machine) (c : Context) :
    ({ s with machine := m }.commit owner c).scripts.get? owner =
      some { script with globals := c.commit script.globals } := by
  unfold commit
  dsimp only
  rw [loaded]
  exact Table.get?_insert_self _ _ _

/-! ## The frame of a unit -/

/-- The second session comes from the first by work for an owner. -/
structure WorksFor (owner : ActorId) (s s' : Session σ) : Prop where
  /-- The caps stay. -/
  limits : s'.limits = s.limits
  /-- Nothing is stored. -/
  archive : s'.archive = s.archive
  /-- The lines that wait stay. -/
  handlers : s'.handlers = s.handlers
  /-- No event comes or goes. -/
  inbox : s'.inbox = s.inbox
  /-- No identity is handed out. -/
  supply : s'.supply = s.supply
  /-- The scripts of others stay. -/
  others : ∀ o, o ≠ owner → s'.scripts.get? o = s.scripts.get? o
  /-- Of the owner's script only the globals change. -/
  own : ∃ g : Script → Table String Scalar, s'.scripts.get? owner =
    (s.scripts.get? owner).map fun script => { script with globals := g script }

namespace WorksFor

variable {owner : ActorId} {s s' s'' : Session σ}

@[refl] theorem refl (owner : ActorId) (s : Session σ) : WorksFor owner s s where
  limits := rfl
  archive := rfl
  handlers := rfl
  inbox := rfl
  supply := rfl
  others _ _ := rfl
  own := ⟨Script.globals, by simp⟩

theorem trans (h : WorksFor owner s s') (h' : WorksFor owner s' s'') : WorksFor owner s s'' where
  limits := h'.limits.trans h.limits
  archive := h'.archive.trans h.archive
  handlers := h'.handlers.trans h.handlers
  inbox := h'.inbox.trans h.inbox
  supply := h'.supply.trans h.supply
  others o ho := (h'.others o ho).trans (h.others o ho)
  own := by
    obtain ⟨g, own⟩ := h.own
    obtain ⟨g', own'⟩ := h'.own
    refine ⟨fun script => g' { script with globals := g script }, ?_⟩
    rw [own', own, Option.map_map]
    rfl

/-- Whatever happens to the machine, the frame is kept. -/
theorem withMachine (owner : ActorId) (s : Session σ) (m : Machine) :
    WorksFor owner s { s with machine := m } where
  limits := rfl
  archive := rfl
  handlers := rfl
  inbox := rfl
  supply := rfl
  others _ _ := rfl
  own := ⟨Script.globals, by simp⟩

theorem commit (s : Session σ) (owner : ActorId) (c : Context) :
    WorksFor owner s (s.commit owner c) := by
  unfold Session.commit
  cases loaded : s.scripts.get? owner with
  | none => exact refl owner s
  | some script =>
      refine ⟨rfl, rfl, rfl, rfl, rfl, fun o ho => ?_, fun script => c.commit script.globals, ?_⟩
      · exact Table.get?_insert_of_ne _ _ (Ne.symm ho)
      · rw [loaded]
        exact Table.get?_insert_self _ _ _

theorem conclude (s : Session σ) (owner : ActorId) (c : Context) (o : Outcome) (m : Machine) :
    WorksFor owner s (s.conclude owner c o m) :=
  (withMachine owner s _).trans (commit _ owner c)

/-- A chain of units for one owner. -/
theorem foldl {α : Type} {step : Session σ → α → Session σ} {l : List α}
    (each : ∀ a ∈ l, ∀ s, WorksFor owner s (step s a)) (s : Session σ) :
    WorksFor owner s (l.foldl step s) := by
  induction l generalizing s with
  | nil => exact refl owner s
  | cons a l ih =>
      rw [List.foldl_cons]
      exact (each a (List.mem_cons_self ..) s).trans
        (ih (fun b hb => each b (List.mem_cons_of_mem _ hb)) _)

end WorksFor

@[simp] theorem refreshed_actor (s : Session σ) (c : Context) :
    (s.refreshed c).frame.actor = c.frame.actor := by
  unfold refreshed
  split <;> rfl

/-- A poll leaves the actor of a loop. -/
@[simp] theorem poll_actor (t : LoopTask) (m : Machine) (limits : Limits) :
    (t.poll m limits).2.1.actor = t.actor := by
  have polled := t.polled m limits
  generalize t.poll m limits = result at polled ⊢
  cases polled with
  | idle _ => rfl
  | goesOn _ _ => rfl
  | ends _ _ => rfl

theorem runHandler_worksFor (s : Session σ) (h : Handler) (e : Event) :
    WorksFor h.owner s (s.runHandler h e) := by
  unfold runHandler
  split
  · exact .refl _ s
  split
  · exact .refl _ s
  split
  · exact (WorksFor.withMachine h.owner s _).trans (.commit _ _ _)
  · exact .refl _ s

theorem runDelayed_worksFor (s : Session σ) (d : Delayed) :
    WorksFor d.actor s (s.runDelayed d) := by
  have same : ({ d with context := s.refreshed d.context }.run s.machine s.limits).2.1.actor =
      d.actor := s.refreshed_actor d.context
  unfold runDelayed
  rw [← same]
  exact .conclude s _ _ _ _

theorem pollLoop_worksFor (s : Session σ) (t : LoopTask) :
    WorksFor t.actor s (s.pollLoop t) := by
  have same : ({ t with context := s.refreshed t.context }.poll s.machine s.limits).2.1.actor =
      t.actor := (poll_actor _ _ _).trans (s.refreshed_actor t.context)
  unfold pollLoop
  rw [← same]
  dsimp only
  split
  · exact .conclude s _ _ _ _
  · exact .conclude s _ _ _ _

/-! ## Chains of units -/

/-- No script is taken away, and none is changed in anything but its globals. -/
def Grows (s s' : Session σ) : Prop :=
  ∀ o script, s.scripts.get? o = some script →
    ∃ g, s'.scripts.get? o = some { script with globals := g }

namespace Grows

variable {s s' s'' : Session σ}

@[refl] theorem refl (s : Session σ) : Grows s s := fun _ script loaded => ⟨script.globals, loaded⟩

theorem trans (h : Grows s s') (h' : Grows s' s'') : Grows s s'' := by
  intro o script loaded
  obtain ⟨g, after⟩ := h o script loaded
  obtain ⟨g', last⟩ := h' o _ after
  exact ⟨g', last⟩

/-- Sessions with the same scripts. -/
theorem of_scripts_eq (same : s'.scripts = s.scripts) : Grows s s' := by
  intro o script loaded
  exact ⟨script.globals, by rw [same, loaded]⟩

theorem foldl {α : Type} {step : Session σ → α → Session σ} (each : ∀ s a, Grows s (step s a))
    (l : List α) (s : Session σ) : Grows s (l.foldl step s) := by
  induction l generalizing s with
  | nil => exact refl s
  | cons a l ih => exact (each s a).trans (ih _)

end Grows

theorem WorksFor.grows {owner : ActorId} {s s' : Session σ} (h : WorksFor owner s s') :
    Grows s s' := by
  intro o script loaded
  by_cases same : o = owner
  · subst same
    obtain ⟨g, own⟩ := h.own
    exact ⟨g script, by rw [own, loaded, Option.map_some]⟩
  · exact ⟨script.globals, by rw [h.others o same, loaded]⟩

/-- Loading adds a script only where there is none. -/
theorem ensureLoaded_grows [Archive σ] {s s' : Session σ} {owner : ActorId} {found : Bool}
    (h : s.ensureLoaded owner = .ok (found, s')) : Grows s s' := by
  unfold ensureLoaded at h
  split at h
  · cases h
    exact .refl s
  · next absent =>
    split at h
    · cases h
    · cases h
      exact .refl s
    · next script supply _ =>
      cases h
      intro o script' loaded
      -- nothing is loaded where there is a script already
      have other : owner ≠ o := by
        rintro rfl
        exact absent (Table.contains_iff.mpr ⟨script', loaded⟩)
      exact ⟨script'.globals, (Table.get?_insert_of_ne _ _ other).trans loaded⟩

theorem dispatchNow_grows [Archive σ] (s : Session σ) (e : Event) : Grows s (s.dispatchNow e) := by
  unfold dispatchNow
  cases loading : s.ensureLoaded e.actor with
  | error _ => exact .refl s
  | ok result =>
      exact (ensureLoaded_grows loading).trans
        (.foldl (fun s h => (s.runHandler_worksFor h e).grows) _ _)

theorem dispatch_grows [Archive σ] (s : Session σ) (e : Event) : Grows s (s.dispatch e) := by
  unfold dispatch
  split
  · exact s.dispatchNow_grows e
  · exact .of_scripts_eq rfl

theorem withMachine_grows (s : Session σ) (m : Machine) : Grows s { s with machine := m } :=
  .of_scripts_eq rfl

theorem runDelays_grows (s : Session σ) : Grows s s.runDelays :=
  (s.withMachine_grows _).trans (.foldl (fun s d => (s.runDelayed_worksFor d).grows) _ _)

theorem pollLoops_grows (s : Session σ) : Grows s s.pollLoops :=
  (s.withMachine_grows _).trans (.foldl (fun s t => (s.pollLoop_worksFor t).grows) _ _)

theorem tick_grows [Archive σ] (s : Session σ) : Grows s s.tick := by
  have emptied : Grows s { s with inbox := [] } := .of_scripts_eq rfl
  have events := emptied.trans (.foldl dispatchNow_grows s.inbox _)
  exact ((events.trans (withMachine_grows _ _)).trans (runDelays_grows _)).trans (pollLoops_grows _)

end Session

end Blockwork
