import Blockwork.Proofs.Context
import Blockwork.Proofs.Session.Units
import Blockwork.Proofs.Trace.Runs

/-!
# No update is lost and none is made up

The context of a delayed body or of a loop is copied when the work is put off, and other work of the
same actor commits in between.  Every unit of work therefore begins with a new snapshot and an overlay
without lasting variables, and what it commits is what its own blocks have done.

`Job` is a unit of work, and `Job.work` what it runs once it has a context, with or without notes.
The main result `Job.accounted` is about one unit in any session: what its blocks read, and how the
globals of the script differ afterwards from what they were before.

## What is load-bearing

The notes are taken by a second interpreter.  That it does what the first does is part of the result
(`Job.Accounted.faithful`), and so is that the session stores what the first arrives at
(`Job.Accounted.stored`).
-/

namespace Blockwork

namespace Context

/-- Contexts in which every variable is the same. -/
structure Alike (c c' : Context) : Prop where
  /-- The overlay and the log are the same. -/
  scope : c'.scope = c.scope
  /-- The snapshot is the same. -/
  globals : c'.frame.globals = c.frame.globals

namespace Alike

variable {c c' c'' : Context}

theorem refl (c : Context) : Alike c c := ⟨rfl, rfl⟩

theorem trans (h : Alike c c') (h' : Alike c' c'') : Alike c c'' :=
  ⟨h'.scope.trans h.scope, h'.globals.trans h.globals⟩

theorem setRole (c : Context) (role value : String) : Alike c (c.setRole role value) := ⟨rfl, rfl⟩

theorem bindActor (w : World) (c : Context) (role : String) (id : ActorId) :
    Alike c (Session.bindActor w c role id) := by
  unfold Session.bindActor
  split
  · exact setRole c role _
  · exact refl c

theorem foldl {α : Type} {step : Context → α → Context} (each : ∀ c a, Alike c (step c a))
    (l : List α) (c : Context) : Alike c (l.foldl step c) := by
  induction l generalizing c with
  | nil => exact refl c
  | cons a l ih => exact (each c a).trans (ih _)

/-- Binding roles leaves the variables. -/
theorem bindRoles (c : Context) (e : Event) (w : World) (dice : Dice) :
    Alike c (Session.bindRoles c e w dice).1 := by
  have others (c : Context) : Alike c (e.roles.toList.foldl
      (fun c r => Session.bindActor w c r.1 r.2) (Session.bindActor w c "player" e.actor)) :=
    (bindActor w c "player" e.actor).trans
      (foldl (fun c (r : String × ActorId) => bindActor w c r.1 r.2) _ _)
  unfold Session.bindRoles
  refine Alike.trans ?_ (foldl (fun c d => setRole c _ _) e.data.toList _)
  cases e.kind.actorRole with
  | none =>
      cases (dice.choose w.actors).1 with
      | none => exact others c
      | some a => exact (others c).trans (setRole _ "random" a.name)
  | some role =>
      have acting := bindActor w c role e.actor
      cases (dice.choose w.actors).1 with
      | none => exact acting.trans (others _)
      | some a => exact (acting.trans (others _)).trans (setRole _ "random" a.name)

end Alike

end Context

/-- A unit of work. -/
inductive Job where
  /-- A handler's line, started by an event. -/
  | handler (h : Handler) (e : Event)
  /-- A delayed body. -/
  | delayed (d : Delayed)
  /-- One iteration of an asynchronous loop. -/
  | iteration (t : LoopTask)

namespace Job

variable {σ : Type}

/-- The actor whose script the unit belongs to. -/
def owner : Job → ActorId
  | .handler h _ => h.owner
  | .delayed d => d.actor
  | .iteration t => t.actor

/-- What the unit does to a session. -/
def run (s : Session σ) : Job → Session σ
  | .handler h e => s.runHandler h e
  | .delayed d => s.runDelayed d
  | .iteration t => s.pollLoop t

/-- The context in which the unit begins, and the machine. -/
def opening (s : Session σ) (script : Script) : Job → Context × Machine
  | .handler _ e =>
    let m := s.machine
    let c := Context.ofScript e.actor script s.limits.logEntries m.signals.fresh.1
    let bound := Session.bindRoles c e m.world m.dice
    (bound.1, { m with signals := m.signals.fresh.2, dice := bound.2 })
  | .delayed d => (d.context.refresh script.globals, s.machine)
  | .iteration t => (t.context.refresh script.globals, s.machine)

/-- What the unit runs in its context: `blocks` runs siblings, and `iterate` makes an iteration of a
loop. -/
def work {m : Type → Type} [Monad m] (blocks : Frame → List Block → m Outcome)
    (iterate : Frame → m Outcome → Cursor → m Step) (s : Session σ) (script : Script) :
    Job → Frame → m Unit
  | .handler h e, f =>
    match script.lines[h.line]? with
    | none => pure ()
    | some line =>
      if script.enabled && line.enabled && Session.isBoundHere s.machine.world script e.actor then do
        let _ ← blocks { f with line := line.name } line.body
        pure ()
      else pure ()
  | .delayed d, f => do
    let _ ← blocks f d.body
    pure ()
  | .iteration t, f =>
    if t.isOver s.machine then pure ()
    else do
      let _ ← iterate f (blocks f t.body) t.cursor
      pure ()

/-- The state in which the unit ends. -/
def final (s : Session σ) (script : Script) (j : Job) : RunState :=
  let (c, m) := j.opening s script
  ((j.work (Interpreter.run s.limits) Loop.iterate s script c.frame).run ⟨c.scope, m⟩).2

/-- The context in which the unit ends. -/
def closing (s : Session σ) (script : Script) (j : Job) : Context :=
  ⟨(j.opening s script).1.frame, (j.final s script).scope⟩

/-- The notes of the unit, and the state in which it ends with them. -/
def traced (s : Session σ) (script : Script) (j : Job) : List Note × RunState :=
  let (c, m) := j.opening s script
  let result := (j.work (Traced.run s.limits) Traced.iterate s script c.frame).after [] ⟨c.scope, m⟩
  (result.1.2, result.2)

/-- The notes of the unit. -/
def notes (s : Session σ) (script : Script) (j : Job) : List Note := (j.traced s script).1

/-- A unit of work and the globals of its owner's script. -/
structure Accounted (s : Session σ) (script : Script) (j : Job) : Prop where
  /-- The unit with notes ends as the unit does. -/
  faithful : (j.traced s script).2 = j.final s script
  /-- A look at a lasting variable that nothing has touched finds the latest global. -/
  reads : ∀ before c after, j.notes s script = before ++ .read c :: after →
    ∀ n, isTransient n = false → n ∉ Note.touched before →
      c.get? n = (script.globals.get? n).map Datum.ofScalar
  /-- Only the globals of the owner's script change, and these as the notes say. -/
  stored : ∃ globals, (j.run s).scripts.get? j.owner = some { script with globals := globals } ∧
    -- Every lasting global holds the stored form of what its variable has become.
    (∀ n, isTransient n = false →
      globals.get? n = ((j.closing s script).get? n).map Datum.toScalar) ∧
    -- What is not noted as written, cleared or taken over from a call is as before.
    (∀ n, n ∉ Note.changed (j.notes s script) → globals.get? n = script.globals.get? n) ∧
    -- No transient name comes, changes or goes.
    (∀ n, isTransient n = true → globals.get? n = script.globals.get? n)
  /-- The scripts of others stay. -/
  others : ∀ o, o ≠ j.owner → (j.run s).scripts.get? o = s.scripts.get? o

/-! ## How a unit begins -/

variable (s : Session σ) (script : Script)

theorem opening_globals (j : Job) :
    (j.opening s script).1.frame.globals = snapshot script.globals := by
  cases j with
  | handler h e => exact (Context.Alike.bindRoles _ e _ _).globals
  | delayed d => rfl
  | iteration t => rfl

theorem opening_locals (j : Job) {n : String} (lasting : isTransient n = false) :
    (j.opening s script).1.scope.locals.get? n = none := by
  cases j with
  | handler h e =>
      show (Session.bindRoles _ e _ _).1.scope.locals.get? n = none
      rw [(Context.Alike.bindRoles _ e _ _).scope]
      rfl
  | delayed d => exact Context.refresh_locals _ _ lasting
  | iteration t => exact Context.refresh_locals _ _ lasting

/-- At the start there are no notes, and they agree with the state. -/
theorem follows_opening (j : Job) :
    Follows (snapshot script.globals) [] (j.opening s script).1.scope.locals where
  reads before c after split := by simp at split
  clean n lasting _ := j.opening_locals s script lasting

/-- The unit with notes stands for the unit. -/
theorem traces_work {g : Table String Datum} {f : Frame} (under : f.globals = g) (j : Job) :
    Traces g (j.work (Traced.run s.limits) Traced.iterate s script f)
      (j.work (Interpreter.run s.limits) Loop.iterate s script f) := by
  cases j with
  | handler h e =>
      simp only [work]
      cases script.lines[h.line]? with
      | none => exact .pure _
      | some line =>
          have blocks := Traces.run s.limits (f := { f with line := line.name }) under line.body
          dsimp only
          split
          · exact .bind blocks fun _ => .pure _
          · exact .pure _
  | delayed d => exact .bind (.run s.limits under d.body) fun _ => .pure _
  | iteration t =>
      simp only [work]
      split
      · exact .pure _
      · exact .bind (.iterate under (.run s.limits under t.body) t.cursor) fun _ => .pure _

/-! ## How a unit ends -/

variable {s script}

/-- A line that runs ends with the variables that its body ends with. -/
theorem runLine_scope (c : Context) (m : Machine) (limits : Limits) {l : Line}
    (enabled : l.enabled = true) :
    (c.runLine m limits l).2.1.scope =
      ((Interpreter.run limits { c.frame with line := l.name } l.body).run ⟨c.scope, m⟩).2.scope := by
  unfold Context.runLine
  rw [if_pos enabled]
  rfl

/-- The handler of a line that does not run leaves the globals. -/
theorem commit_opening (s : Session σ) (script : Script) (h : Handler) (e : Event) :
    ((handler h e).opening s script).1.commit script.globals = script.globals := by
  show (Session.bindRoles _ e _ _).1.scope.locals.toList.foldl _ _ = _
  rw [(Context.Alike.bindRoles _ e _ _).scope]
  rfl

theorem run_own_handler {h : Handler} {e : Event} (loaded : s.scripts.get? h.owner = some script) :
    (s.runHandler h e).scripts.get? h.owner =
      some { script with globals := ((handler h e).closing s script).commit script.globals } := by
  unfold Session.runHandler
  rw [loaded]
  dsimp only
  cases found : script.lines[h.line]? with
  | none =>
      have idle : (handler h e).closing s script = ((handler h e).opening s script).1 := by
        simp only [closing, final, work, found]
        rfl
      rw [idle, commit_opening]
      exact loaded
  | some line =>
      dsimp only
      split
      · next on =>
        have enabled : line.enabled = true := by
          rw [Bool.and_eq_true, Bool.and_eq_true] at on
          exact on.1.2
        rw [Session.get?_commit_self loaded]
        unfold Context.commit
        rw [runLine_scope _ _ _ enabled]
        simp only [closing, final, work, found, on, if_true]
        rfl
      · next off =>
        have idle : (handler h e).closing s script = ((handler h e).opening s script).1 := by
          simp only [closing, final, work, found, off]
          rfl
        rw [idle, commit_opening]
        exact loaded

theorem run_own_delayed {d : Delayed} (loaded : s.scripts.get? d.actor = some script) :
    (s.runDelayed d).scripts.get? d.actor =
      some { script with globals := ((delayed d).closing s script).commit script.globals } := by
  have refreshed : s.refreshed d.context = d.context.refresh script.globals := by
    unfold Session.refreshed
    rw [show s.scripts.get? d.context.frame.actor = some script from loaded]
  unfold Session.runDelayed
  rw [refreshed]
  exact Session.get?_commit_self loaded _ _

/-- A poll ends with the variables that the iteration ends with. -/
theorem poll_scope (s : Session σ) (script : Script) (t : LoopTask) :
    ({ t with context := t.context.refresh script.globals }.poll s.machine
      s.limits).2.1.context.scope = ((iteration t).closing s script).scope := by
  have polled := { t with context := t.context.refresh script.globals }.polled s.machine s.limits
  generalize LoopTask.poll _ s.machine s.limits = result at polled ⊢
  simp only [closing, final, work]
  cases polled with
  | idle ended =>
      have ended : t.isOver s.machine = true := ended
      rw [ended]
      rfl
  | goesOn live ran =>
      have live : t.isOver s.machine = false := live
      rw [live]
      exact congrArg (fun r => r.2.scope) ran.symm
  | ends live ran =>
      have live : t.isOver s.machine = false := live
      rw [live]
      exact congrArg (fun r => r.2.scope) ran.symm

theorem run_own_iteration {t : LoopTask} (loaded : s.scripts.get? t.actor = some script) :
    (s.pollLoop t).scripts.get? t.actor =
      some { script with globals := ((iteration t).closing s script).commit script.globals } := by
  have refreshed : s.refreshed t.context = t.context.refresh script.globals := by
    unfold Session.refreshed
    rw [show s.scripts.get? t.context.frame.actor = some script from loaded]
  have own := Session.poll_actor { t with context := t.context.refresh script.globals } s.machine
    s.limits
  have closed := poll_scope s script t
  unfold Session.pollLoop
  rw [refreshed]
  generalize LoopTask.poll _ s.machine s.limits = polled at own closed ⊢
  obtain ⟨p, t', m⟩ := polled
  have own : t'.actor = t.actor := own
  have loaded' : s.scripts.get? t'.actor = some script := by rw [own, loaded]
  rw [← own]
  unfold Context.commit
  rw [← closed]
  cases p with
  | pending => exact Session.get?_commit_self loaded' _ _
  | finished o => exact Session.get?_commit_self loaded' _ _

/-- What the unit commits is what its variables have become. -/
theorem run_own {j : Job} (loaded : s.scripts.get? j.owner = some script) :
    (j.run s).scripts.get? j.owner =
      some { script with globals := (j.closing s script).commit script.globals } := by
  cases j with
  | handler h e => exact run_own_handler loaded
  | delayed d => exact run_own_delayed loaded
  | iteration t => exact run_own_iteration loaded

theorem run_worksFor (s : Session σ) (j : Job) : Session.WorksFor j.owner s (j.run s) := by
  cases j with
  | handler h e => exact s.runHandler_worksFor h e
  | delayed d => exact s.runDelayed_worksFor d
  | iteration t => exact s.pollLoop_worksFor t

/-- The unit with notes ends as the unit does. -/
theorem traced_final (s : Session σ) (script : Script) (j : Job) :
    (j.traced s script).2 = j.final s script :=
  (congrArg Prod.snd (j.traces_work s script (j.opening_globals s script) []
    ⟨(j.opening s script).1.scope, (j.opening s script).2⟩).same).symm

/-- A lasting variable that is not noted as written, cleared or taken over from a call has no place in
the overlay at the end. -/
theorem closing_locals (s : Session σ) (script : Script) (j : Job) {n : String}
    (lasting : isTransient n = false) (unchanged : n ∉ Note.changed (j.notes s script)) :
    (j.closing s script).scope.locals.get? n = none := by
  obtain ⟨more, added, frame⟩ := (j.traces_work s script (j.opening_globals s script) []
    ⟨(j.opening s script).1.scope, (j.opening s script).2⟩).grows
  show (j.final s script).scope.locals.get? n = none
  rw [← traced_final]
  -- nothing was there at the start and nothing was noted
  refine (frame n ?_).trans (j.opening_locals s script lasting)
  rw [List.nil_append] at added
  rwa [← added]

/-- **No update is lost and none is made up.** In any session and for any unit of work whose owner's
script is loaded: a lasting variable that the unit has not touched is read as the latest global; the
globals differ afterwards only at lasting names that blocks of the unit wrote, cleared or took over
from a call, and hold there what the variable has become; and nothing of another owner changes. -/
theorem accounted (s : Session σ) (j : Job) {script : Script}
    (loaded : s.scripts.get? j.owner = some script) : Accounted s script j := by
  have traces := j.traces_work s script (j.opening_globals s script) []
    ⟨(j.opening s script).1.scope, (j.opening s script).2⟩
  have follows := traces.follows (j.follows_opening s script)
  have closed : (j.closing s script).frame.globals = snapshot script.globals :=
    j.opening_globals s script
  refine ⟨j.traced_final s script, fun before c after split n lasting fresh => ?_,
    ⟨_, run_own loaded, fun n lasting => ?_, fun n unchanged => ?_, fun n transient => ?_⟩,
    (j.run_worksFor s).others⟩
  · obtain ⟨snap, above⟩ := follows.reads before c after split
    rw [Context.get?_of_locals (above n lasting fresh), snap, get?_snapshot]
  · exact Context.get?_commit_snapshot closed lasting
  · cases lasting : isTransient n with
    | true => exact Context.get?_commit_transient _ _ lasting
    | false =>
        rw [Context.get?_commit _ _ lasting, j.closing_locals s script lasting unchanged]
        rfl
  · exact Context.get?_commit_transient _ _ transient

/-- A script with one global. -/
def moodScript : Script :=
  { ownerId := ⟨1⟩
    ownerName := "ada"
    lastModified := ⟨0, 0⟩
    globals := ({} : Table String Scalar).insert "mood" (.text "calm") }

/-- A session whose only script it is. -/
def moodSession : Session MemoryArchive :=
  { archive := {}
    scripts := ({} : Table ActorId Script).insert ⟨1⟩ moodScript }

/-- A body that was put off when the variable had another value. -/
def lateBody : Delayed :=
  { due := 0
    body := [⟨⟨2⟩, .variable_ { op := some .set, name := "seen", value := some (.text "yes") }, []⟩]
    context := (Context.detached ⟨1⟩ 0).set "mood" (.text "angry") }

/-- The body writes its own variable and not the value from the time it was put off. -/
theorem globals_after_lateBody : ∃ globals : Table String Scalar,
    (moodSession.runDelayed lateBody).scripts.get? ⟨1⟩ = some { moodScript with globals := globals } ∧
      globals.get? "mood" = some (.text "calm") ∧ globals.get? "seen" = some (.text "yes") := by
  have loaded : moodSession.scripts.get? (delayed lateBody).owner = some moodScript := rfl
  obtain ⟨globals, stored, become, kept, -⟩ :=
    (accounted moodSession (.delayed lateBody) loaded).stored
  refine ⟨globals, stored, (kept "mood" ?_).trans rfl, (become "seen" rfl).trans rfl⟩
  decide +kernel

end Job

end Blockwork
