import Blockwork.Proofs.Session.Pending

/-!
# What work that is put off finds

A body that is put off, and a loop that is handed over, keep a copy of the variables as they are at that
point; within a function these are the variables of the call, with its parameters bound.  When the work
begins, the copy is given a new snapshot, and of its overlay only the transient names stay
(`Context.refresh`).  What a lasting variable reads as is therefore not what it was bound to but what the
unit of work that put the work off has committed in its name (`Session.found_at_start`).  A parameter of a
function is not committed by anyone: the caller drops it when the call comes back.

## What is load-bearing

A loop evaluates its question and publishes its variables before its body begins.  `Run.Spares` is that a
run leaves the lasting variables alone.
-/

namespace Blockwork

/-! ## Runs that leave the lasting variables -/

namespace Run

variable {α β : Type}

/-- A run leaves the lasting variables of the overlay as they are. -/
def Spares (r : Run α) : Prop :=
  ∀ st n, isTransient n = false → (r.run st).2.scope.locals.get? n = st.scope.locals.get? n

namespace Spares

theorem of_scope_eq {r : Run α} (same : ∀ st, (r.run st).2.scope = st.scope) : Spares r := by
  intro st n _
  rw [same]

/-- What changes no variable spares them. -/
theorem reading : Reading Spares where
  pure _ _ _ _ := rfl
  bind first rest st n lasting := (rest _ _ n lasting).trans (first st n lasting)
  scene _ := of_scope_eq fun _ => rfl
  roll _ := of_scope_eq fun _ => rfl
  useEffects _ := of_scope_eq fun _ => rfl
  changeWorld _ := of_scope_eq fun _ => rfl

/-- Transient names may be written. -/
theorem set {name : String} (transient : isTransient name = true) (d : Datum) :
    Spares (Run.set name d) := by
  intro st n lasting
  refine Table.get?_insert_of_ne _ _ ?_
  rintro rfl
  rw [transient] at lasting
  cases lasting

end Spares

end Run

/-- A loop comes to its body without touching lasting variables. -/
theorem Loop.spares_opens (f : Frame) (c : Cursor) : Run.Spares (opens f c) := by
  have item : Run.Spares (publishItem c) := by
    unfold publishItem
    split
    · exact .set rfl _
    · exact Run.Spares.reading.pure _
  have publishes : Run.Spares (publish c) := Run.Spares.reading.bind item fun _ =>
    Run.Spares.reading.bind (.set rfl _) fun _ => .set rfl _
  exact Run.Spares.reading.opens_of_publish f publishes

/-! ## The beginning of work that was put off -/

namespace Session

variable {σ : Type} {s s' : Session σ} {j u : Job} {n : Nat} {y : Onset}

/-- What is put off is put off on behalf of the actor for whom the unit runs. -/
theorem Defers.actor (h : s.Defers j n u) : u.owner = j.actor := by
  have begins {x : Onset} (enters : s.Enters j x) : x.frame.actor = j.actor := by
    cases enters with
    | line _ => exact (s.lineFrame_fields _ _ _ _).1
    | delayed | turn _ _ => exact s.refreshed_actor _
  cases h with
  | delayed enters amid puts =>
      rw [Job.owner, Delayed.actor, puts.context_delayed, ← begins enters]
      exact amid.kept.actor
  | iteration enters amid puts =>
      rw [Job.owner, LoopTask.actor, puts.context_loop, ← begins enters]
      exact amid.kept.actor

/-- A body, or the body of a loop, begins with the present globals in its lasting variables. -/
theorem get?_enters {script : Script} (loaded : s.scripts.get? u.owner = some script)
    (late : ∀ h e, u ≠ .handler h e) (enters : s.Enters u y) {p : String}
    (lasting : isTransient p = false) :
    Context.get? ⟨y.frame, y.state.scope⟩ p = (script.globals.get? p).map Datum.ofScalar := by
  have fresh (c : Context) (own : s.scripts.get? c.frame.actor = some script) :
      (s.refreshed c).scope.locals.get? p = none ∧
        (s.refreshed c).frame.globals = snapshot script.globals := by
    unfold refreshed
    rw [own]
    exact ⟨c.refresh_locals _ lasting, rfl⟩
  rw [← get?_snapshot]
  cases enters with
  | @line h e _ _ _ => exact absurd rfl (late h e)
  | @delayed d =>
      obtain ⟨overlay, globals⟩ := fresh d.context loaded
      rw [← globals]
      exact Context.get?_of_locals overlay
  | @turn t st live opened =>
      obtain ⟨overlay, globals⟩ := fresh t.context loaded
      have spared := Loop.spares_opens (s.refreshed t.context).frame t.cursor
        ⟨(s.refreshed t.context).scope, s.machine⟩ p lasting
      rw [opened] at spared
      rw [← globals]
      exact Context.get?_of_locals (spared.trans overlay)

/-- **What work that is put off finds.** Let a unit of work for the owner of a script put off a body or a
loop, in the middle of any number of calls, and let the body run, or the loop come to the body of its
first iteration, in a session in which the script has the globals that the unit has left.  Then

* every lasting variable reads at the start as what it had become at the end of the unit, in the form in
  which it is stored, so it reads as a value that it was bound to where the work was put off exactly if the
  unit has ended with a value of the same stored form in the variable of that name;
* a name that is bound in a call and not written, cleared or taken over anywhere in the unit reads as the
  global of that name, and as nothing if there is none. -/
theorem found_at_start {script : Script} (own : j.actor = j.owner)
    (loaded : s.scripts.get? j.owner = some script) (defers : s.Defers j n u)
    (between : (s'.scripts.get? j.owner).map Script.globals =
      ((j.run s).scripts.get? j.owner).map Script.globals)
    (enters : s'.Enters u y) {p : String} (lasting : isTransient p = false) :
    Context.get? ⟨y.frame, y.state.scope⟩ p =
        ((j.closing s script).get? p).map (fun d => Datum.ofScalar d.toScalar) ∧
      (∀ v : Datum, Context.get? ⟨y.frame, y.state.scope⟩ p = some (Datum.ofScalar v.toScalar) ↔
        ∃ w, (j.closing s script).get? p = some w ∧ w.toScalar = v.toScalar) ∧
      (p ∉ Note.changed (j.notes s script) →
        Context.get? ⟨y.frame, y.state.scope⟩ p = (script.globals.get? p).map Datum.ofScalar) := by
  have closed : (j.closing s script).frame.globals = snapshot script.globals :=
    j.opening_globals s script
  have late : ∀ h e, u ≠ .handler h e := by
    cases defers with
    | delayed _ _ _ | iteration _ _ _ => nofun
  rw [Job.run_own loaded, Option.map_some, Option.map_eq_some_iff] at between
  obtain ⟨script', loaded', globals⟩ := between
  rw [← own, ← defers.actor] at loaded'
  have found : Context.get? ⟨y.frame, y.state.scope⟩ p =
      ((j.closing s script).get? p).map (fun d => Datum.ofScalar d.toScalar) := by
    rw [get?_enters loaded' late enters lasting, globals, Context.get?_commit_snapshot closed lasting,
      Option.map_map]
    rfl
  refine ⟨found, fun v => ?_, fun unchanged => ?_⟩
  · rw [found, Option.map_eq_some_iff]
    refine exists_congr fun w => and_congr_right fun _ => ⟨fun same => ?_, fun same => ?_⟩
    · simpa only [Datum.toScalar_ofScalar] using congrArg Datum.toScalar same
    · rw [same]
  · rw [found, Context.get?_of_locals (j.closing_locals s script lasting unchanged), closed,
      get?_snapshot, Option.map_map]
    refine Option.map_congr fun x _ => ?_
    rw [Function.comp_apply, Datum.toScalar_ofScalar]

/-! ## A greeting that comes too late -/

/-- A script with a function that greets someone one tick after it has been called, and a line that calls
it when its owner has joined. -/
def lateGreeter : Script :=
  { ownerId := ⟨1⟩
    ownerName := "ada"
    lastModified := ⟨0, 0⟩
    lines := [{
      name := "greet"
      blocks := [
        ⟨⟨2⟩, .event (some .join), []⟩,
        ⟨⟨3⟩, .function { name := "later", parameters := ["who"] },
          [⟨⟨4⟩, .delay (some (.text "1")), [⟨⟨5⟩, .message (some (.text "hi \x7bwho\x7d")), []⟩]⟩]⟩,
        ⟨⟨6⟩, .callFunction { function := "later", arguments := "bea" }, []⟩] }] }

/-- A session with the script. -/
def lateGreeting : Session MemoryArchive :=
  (Session.start {} {} .refusing {}).holding lateGreeter

/-- The line that calls the function. -/
def greetingLine : Job := .handler ⟨0, ⟨1⟩, 0⟩ joined

/-- The greeting is put off in a call that binds the parameter, and when it runs, the parameter is
unset. -/
theorem found_at_start_greeting : ∃ d y,
    (greetingLine.run lateGreeting).machine.agenda.delays = [d] ∧
      (d.context.get? "who").map Datum.asText = some "bea" ∧
      (greetingLine.run lateGreeting).atBodies.Enters (.delayed d) y ∧
      Context.get? ⟨y.frame, y.state.scope⟩ "who" = none := by
  have loaded : lateGreeting.scripts.get? greetingLine.owner = some lateGreeter.rebuildFunctions := rfl
  have waits : ((greetingLine.run lateGreeting).machine.agenda.delays.map fun d =>
      (d.context.get? "who").map Datum.asText) = [some "bea"] := by
    decide +kernel
  have untouched : "who" ∉
      Note.changed (greetingLine.notes lateGreeting lateGreeter.rebuildFunctions) := by
    decide +kernel
  obtain ⟨d, alone, bound⟩ := List.map_eq_singleton_iff.mp waits
  obtain ⟨x, done⟩ := lateGreeting.exists_performs greetingLine
  rcases done.mem_delays (alone ▸ List.mem_singleton_self d) with before | begets
  · cases before
  · cases begets with
    | defers put =>
        have enters : (greetingLine.run lateGreeting).atBodies.Enters (.delayed d) _ := .delayed
        obtain ⟨-, -, unset⟩ := found_at_start rfl loaded put (by rfl) enters (p := "who") rfl
        exact ⟨d, _, alone, bound, enters, unset untouched⟩

end Session

end Blockwork
