import Blockwork.Proofs.Session.Pending

/-!
# What the limit on nested calls counts

A call is turned away when the depth of its frame has reached the limit.  The depth is that of the frame in
which the unit of work began, and the calls that have been entered since.  A line begins at depth zero,
but a body that is put off begins at the depth at which it was put off, although the calls that were in
progress then have long come back, and a loop likewise in each of its iterations.  So the limit counts the
calls in progress in the unit *and* those that the unit carries: the ones around the place where it was
put off, the ones around the place where the unit that did so was put off, and so on
(`Chronicle.calls_limited`).

## What is load-bearing

`Carries` is said without a word about frames, so that it can be compared with what the frames say
(`Carries.callDepth`).  That a unit carries anything at all is a matter of its whole past, and this is
where the run of the session comes in (`Reached.carries`).
-/

namespace Blockwork

/-- A unit of work carries a number of calls.  A line carries none.  What is put off carries the calls
that are in progress then, on top of those that the unit carries in which it is put off.  A loop carries
what it has carried before. -/
inductive Carries (σ : Type) : Job → Nat → Prop where
  /-- A line. -/
  | line {h : Handler} {e : Event} : Carries σ (.handler h e) 0
  /-- Work that is put off. -/
  | deferred {s : Session σ} {j u : Job} {b n : Nat} (before : Carries σ j b) (defers : s.Defers j n u) :
      Carries σ u (b + n)
  /-- A loop that goes on. -/
  | goesOn {s : Session σ} {t : LoopTask} {c : Cursor} {st : RunState} {b : Nat}
      (before : Carries σ (.iteration t) b) : Carries σ (.iteration (s.returned t c st)) b

/-- The depth of calls at which a unit of work begins. -/
def Job.callDepth : Job → Nat
  | .handler _ _ => 0
  | .delayed d => d.context.frame.callDepth
  | .iteration t => t.context.frame.callDepth

namespace Session

variable {σ : Type} {s : Session σ}

theorem lineFrame_callDepth (s : Session σ) (script : Script) (h : Handler) (e : Event)
    (name : String) : (s.lineFrame script h e name).callDepth = 0 :=
  congrArg (fun c => c.frame.callDepth) (withoutRoles_bindRoles
    (Context.ofScript e.actor script s.limits.logEntries s.machine.signals.next) e s.machine.world
    s.machine.dice)

/-- A unit of work begins at its depth. -/
theorem Enters.callDepth {j : Job} {x : Onset} (h : s.Enters j x) : x.frame.callDepth = j.callDepth := by
  cases h with
  | line _ => exact s.lineFrame_callDepth _ _ _ _
  | delayed => exact (s.kept_refreshed _).callDepth
  | turn _ _ => exact (s.kept_refreshed _).callDepth

/-- What is put off begins as many calls deeper as are in progress. -/
theorem Defers.callDepth {j u : Job} {n : Nat} (h : s.Defers j n u) :
    u.callDepth = j.callDepth + n := by
  cases h with
  | delayed enters amid puts =>
      rw [Job.callDepth, puts.context_delayed, ← enters.callDepth]
      exact amid.kept.callDepth
  | iteration enters amid puts =>
      rw [Job.callDepth, puts.context_loop, ← enters.callDepth]
      exact amid.kept.callDepth

end Session

/-- The calls that a unit carries are the depth at which it begins. -/
theorem Carries.callDepth {σ : Type} {j : Job} {b : Nat} (h : Carries σ j b) : j.callDepth = b := by
  induction h with
  | line => rfl
  | deferred _ defers ih => rw [defers.callDepth, ih]
  | @goesOn s t c st b _ ih => exact (s.kept_refreshed t.context).callDepth.trans ih

/-- The function that a block calls. -/
def Block.calls? (b : Block) : Option String :=
  match b.instruction with
  | .callFunction c => some c.function
  | _ => none

namespace Chronicle

variable {σ : Type} [Archive σ] {c : Chronicle σ}

/-- Every unit of work that is pending carries some number of calls. -/
theorem Reached.carries (reached : c.Reached) {j : Job} (pending : c.Pending j) : ∃ b, Carries σ j b := by
  refine (reached.handed_on (P := fun j => ∃ b, Carries σ j b) ?_ ?_ ?_).1 j pending
  · exact fun h e _ => ⟨0, .line⟩
  · rintro s j n u ⟨b, before⟩ defers
    exact ⟨b + n, .deferred before defers⟩
  · rintro s t c st ⟨b, before⟩
    exact ⟨b, .goesOn before⟩

/-- **What the limit on nested calls counts.** In every course of a session, whatever the next unit of
work is, it carries a definite number of calls, and a call that is made in it is turned away for its
depth, before anything else happens, exactly if the calls that the unit carries and those that are in
progress in the unit together are as many as the limit allows. -/
theorem calls_limited (reached : c.Reached) {j : Job} {p' : Phase}
    (first : c.phase.first? = some (j, p')) :
    ∃ b, Carries σ j b ∧ (∀ b', Carries σ j b' → b' = b) ∧
      ∀ x n f call st st', c.session.Enters j x → Amid c.session.limits x n ⟨f, .call call, st⟩ →
        (Does c.session.limits f (.call call) st [] (.error (.excess
            (.callDepth c.session.limits.maxCallDepth (Text.trim call.function))), none) st' ↔
          c.session.limits.maxCallDepth ≤ b + n ∧ st' = st) := by
  obtain ⟨b, carries⟩ := reached.carries (.of_first first)
  refine ⟨b, carries, fun b' carries' => carries'.callDepth.symm.trans carries.callDepth, ?_⟩
  intro x n f call st st' enters amid
  have depth : f.callDepth = b + n := by
    rw [← carries.callDepth, ← enters.callDepth]
    exact amid.kept.callDepth
  rw [Does.tooDeep_iff, depth]

/-! ## A function that puts itself off -/

/-- A script with a function that calls itself one tick later, and a line that calls it when its owner
has joined. -/
def nagger : Script :=
  { ownerId := ⟨1⟩
    ownerName := "ada"
    lastModified := ⟨0, 0⟩
    lines := [{
      name := "nag"
      blocks := [
        ⟨⟨2⟩, .event (some .join), []⟩,
        ⟨⟨3⟩, .function { name := "again" },
          [⟨⟨4⟩, .delay (some (.text "1")), [⟨⟨5⟩, .callFunction { function := "again" }, []⟩]⟩]⟩,
        ⟨⟨6⟩, .callFunction { function := "again" }, []⟩] }] }

/-- A session with the script in which no call may be made inside another. -/
def nagging : Session MemoryArchive :=
  (Session.start { maxCallDepth := 1 } {} .refusing {}).holding nagger

theorem reached_nagging : Reached ⟨nagging, .calm, []⟩ := by
  have valid : nagger.problems = [] := by decide +kernel
  exact .step (.start { maxCallDepth := 1 } {} .refusing {})
    (.tend (.install (Session.install_eq_ok valid)))

/-- One tick after the owner has joined, the function calls itself while no call is in progress, and is
turned away: the body carries the call in which it was put off. -/
theorem calls_limited_nagging : ∃ (s : Session MemoryArchive) (past : List Happening) (d : Delayed)
    (x : Onset) (f : Frame) (call : Call) (st : RunState),
    Reached ⟨s, .delays [d], past⟩ ∧ s.limits.maxCallDepth = 1 ∧ Carries MemoryArchive (.delayed d) 1 ∧
      s.Enters (.delayed d) x ∧ Amid s.limits x 0 ⟨f, .call call, st⟩ ∧
      Does s.limits f (.call call) st [] (.error (.excess (.callDepth 1 (Text.trim "again"))), none)
        st := by
  obtain ⟨news, joined, -⟩ := reached_dispatchNow reached_nagging Session.joined
  have empty : (nagging.dispatchNow Session.joined).inbox = [] := by
    refine List.eq_nil_of_length_eq_zero ?_
    decide +kernel
  have limit : (nagging.dispatchNow Session.joined).limits.maxCallDepth = 1 := by decide +kernel
  have waits : ((nagging.dispatchNow Session.joined).machine.agenda.advance.takeDelays.1.map fun d =>
      (d.context.frame.callDepth, d.body.map Block.calls?)) = [(1, [some "again"])] := by
    decide +kernel
  have begun := reached_bodies joined empty
  generalize nagging.dispatchNow Session.joined = s at empty limit waits begun
  obtain ⟨d, alone, known⟩ := List.map_eq_singleton_iff.mp waits
  rw [alone] at begun
  obtain ⟨depth, body⟩ := Prod.mk.inj known
  obtain ⟨⟨id, i, children⟩, sole, calls⟩ := List.map_eq_singleton_iff.mp body
  cases i with
  | callFunction call =>
      have name : call.function = "again" := Option.some.inj calls
      have amid (limits : Limits) (f : Frame) (st : RunState) :
          Amid limits ⟨f, .siblings none d.body, st⟩ 0 ⟨f, .call call, st⟩ := by
        rw [sole]
        exact .into .first (.into .block (.into (.call rfl) .here))
      obtain ⟨n, carries, -, turned⟩ := calls_limited begun (j := .delayed d) rfl
      have one : n = 1 := carries.callDepth.symm.trans depth
      subst one
      have away := (turned _ _ _ call _ _ .delayed (amid _ _ _)).mpr ⟨limit.le, rfl⟩
      rw [name] at away
      change Does s.limits _ _ _ [] (.error (.excess (.callDepth s.limits.maxCallDepth _)), none) _
        at away
      rw [limit] at away
      exact ⟨_, _, d, _, _, call, _, begun, limit, carries, .delayed, amid _ _ _, away⟩
  | _ => cases calls

end Chronicle

end Blockwork
