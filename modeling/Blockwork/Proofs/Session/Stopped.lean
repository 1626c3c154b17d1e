import Blockwork.Proofs.Machine.Heedless
import Blockwork.Proofs.Session.Pending

/-!
# Bodies that outlast their loop

An iteration of a loop over ticks may put a body off, and by the time the body runs the loop may have been
told to stop.  The body runs nevertheless.  But it runs under the signal of the loop, because it has the
frame in which it was put off, and every loop at once asks that signal before each iteration.  So in a
body that outlasts its loop no loop at once makes any iteration, whatever its mode; and only if no
`REPEAT` block runs is the body sure to do the same as if its loop had not been stopped
(`Chronicle.stopped_between`).

## What is load-bearing

That a loop's frame has the signal of the loop is not a matter of types: the frame comes from the place at
which the loop was handed over, and from one iteration to the next (`Reached.cancel_eq`).
-/

namespace Blockwork

/-! ## Other slots and signals -/

namespace Session

variable {σ : Type}

/-- A session with other slots and signals, which are all that a stop changes
(`Machine.exists_requestStop_eq`). -/
def withLoops (s : Session σ) (slots : LoopSlots) (signals : Signals) : Session σ :=
  { s with machine := s.machine.withLoops slots signals }

theorem report_withLoops (m : Machine) (actor : ActorId) (line : String) (o : Outcome)
    (slots : LoopSlots) (signals : Signals) :
    report (m.withLoops slots signals) actor line o =
      (report m actor line o).withLoops slots signals := by
  cases o <;> rfl

theorem conclude_withLoops (s : Session σ) (owner : ActorId) (c : Context) (o : Outcome) (m : Machine)
    (slots slots' : LoopSlots) (signals signals' : Signals) :
    (s.withLoops slots signals).conclude owner c o (m.withLoops slots' signals') =
      (s.conclude owner c o m).withLoops slots' signals' := by
  unfold conclude commit
  rw [report_withLoops]
  dsimp only [withLoops]
  cases s.scripts.get? owner <;> rfl

/-- **A delayed body in which no `REPEAT` block runs does the same whatever the slots and signals are.** -/
theorem Performs.withLoops {s : Session σ} {d : Delayed} {x : Happening}
    (h : s.Performs (.delayed d) x) (without : Deed.WithoutRepeat x.deeds) (slots : LoopSlots)
    (signals : Signals) :
    (s.withLoops slots signals).Performs (.delayed d) x ∧ ∃ slots' signals',
      (s.withLoops slots signals).runDelayed d = (s.runDelayed d).withLoops slots' signals' := by
  cases h with
  | @delayed d deeds o st ran =>
      obtain ⟨slots', signals', same⟩ := ran.heedless trivial without slots signals
      have alone := runDelayed_eq (Run.outcome_eq ran.sound)
      have other := runDelayed_eq (s := s.withLoops slots signals) (Run.outcome_eq same.sound)
      refine ⟨.delayed same, slots', signals', ?_⟩
      rw [alone, other]
      exact s.conclude_withLoops _ _ _ _ slots slots' signals signals'

end Session

namespace Chronicle

variable {σ : Type} [Archive σ] {c : Chronicle σ}

/-- A loop that is pending has its own signal in its frame. -/
theorem Reached.cancel_eq (reached : c.Reached) {t : LoopTask} (pending : c.Pending (.iteration t)) :
    t.context.frame.cancel = t.handle.signal := by
  refine (reached.handed_on
    (P := fun j => ∀ t, j = .iteration t → t.context.frame.cancel = t.handle.signal)
    ?_ ?_ ?_).1 _ pending t rfl
  · exact fun h e _ t same => by cases same
  · rintro s j n u - defers t rfl
    cases defers with
    | iteration _ _ puts => rw [puts.context_loop]
  · intro s t c st own t' same
    obtain rfl := Job.iteration.inj same
    exact (s.kept_refreshed t.context).cancel.trans (own t rfl)

/-- **Bodies that outlast their loop.** Let an iteration of a loop over ticks put a body off, and let the
body run in a session.  If the loop has been told to stop, every loop at once that the body comes to,
however deep in functions and other loops, ends at once and makes no iteration.  If no `REPEAT` block runs
in the body, then whatever loops are in progress and whatever signals are raised, the same blocks run
with the same outcomes, and the session is the same afterwards, but for slots and signals. -/
theorem stopped_between (reached : c.Reached) {t : LoopTask} {p' : Phase}
    (first : c.phase.first? = some (.iteration t, p')) {n : Nat} {d : Delayed}
    (defers : c.session.Defers (.iteration t) n (.delayed d)) (s : Session σ) :
    (s.machine.signals.isRaised t.handle.signal = true →
      ∀ {x m y r body k counts}, s.Enters (.delayed d) x → Amid s.limits x m y →
        y.doing = .rounds r body k counts →
        counts = [] ∧
          Does s.limits y.frame y.doing y.state [.looped r []] (.success, none) y.state) ∧
      ∀ {x} slots signals, s.Performs (.delayed d) x → Deed.WithoutRepeat x.deeds →
        (s.withLoops slots signals).Performs (.delayed d) x ∧ ∃ slots' signals',
          (s.withLoops slots signals).runDelayed d = (s.runDelayed d).withLoops slots' signals' := by
  have cancel : d.context.frame.cancel = t.handle.signal := by
    rw [← reached.cancel_eq (.of_first first)]
    cases defers with
    | delayed enters amid puts =>
        rw [puts.context_delayed, ← (c.session.kept_refreshed t.context).cancel]
        cases enters with
        | turn _ _ => exact amid.kept.cancel
  refine ⟨fun raised x m y r body k counts enters amid loops => ?_,
    fun slots signals performs without => performs.withLoops without slots signals⟩
  cases enters with
  | delayed =>
      refine amid.halted ⟨?_, fun r body c counts loops => by cases loops⟩ loops
      show s.machine.signals.isRaised (s.refreshed d.context).frame.cancel = true
      rw [(s.kept_refreshed d.context).cancel, cancel]
      exact raised

/-! ## A loop that is stopped between two beats -/

/-- A script with a loop over ticks, in each iteration of which a body is put off by one tick; the body is
a loop at once that sends one message. -/
def pulse : Script :=
  { ownerId := ⟨1⟩
    ownerName := "ada"
    lastModified := ⟨0, 0⟩
    lines := [{
      name := "pulse"
      blocks := [
        ⟨⟨2⟩, .event (some .join), []⟩,
        ⟨⟨3⟩, .repeat_ { mode := some .forever, isAsync := true, interval := 5 },
          [⟨⟨4⟩, .delay (some (.text "1")),
            [⟨⟨5⟩, .repeat_ { mode := some .forever },
              [⟨⟨6⟩, .message (some (.text "beat")), []⟩, ⟨⟨7⟩, .break_, []⟩]⟩]⟩]⟩] }] }

/-- A session with the script whose owner is online. -/
def pulsing : Session MemoryArchive :=
  (Session.start {} Session.lonely .refusing {}).holding pulse

theorem reached_pulsing : Reached ⟨pulsing, .calm, []⟩ := by
  have valid : pulse.problems = [] := by decide +kernel
  exact .step (.start {} Session.lonely .refusing {}) (.tend (.install (Session.install_eq_ok valid)))

/-- Whether a block is a loop at once without end. -/
def isEndless (b : Block) : Bool :=
  match b.instruction with
  | .repeat_ r => r.mode = some .forever && !r.isAsync
  | _ => false

/-- A loop at once without end begins with a look at its signal. -/
theorem amid_endless (limits : Limits) {f : Frame} {st : RunState} {b : Block}
    (endless : isEndless b = true) : ∃ r c, r.mode = some .forever ∧
      Amid limits ⟨f, .siblings none [b], st⟩ 0 ⟨f, .rounds r b.children c [], st⟩ := by
  obtain ⟨id, i, children⟩ := b
  cases i with
  | repeat_ r =>
      obtain ⟨mode, count, list, condition, isAsync, interval⟩ := r
      obtain ⟨isForever, atOnce⟩ := Bool.and_eq_true_iff.mp endless
      cases of_decide_eq_true isForever
      cases Bool.not_eq_true' _ |>.mp atOnce
      exact ⟨_, _, rfl, .into .first (.into .block (.into (.loop rfl) .here))⟩
  | _ => cases endless

/-- The session at the next tick after the owner has joined, when the loop is about to make its first
iteration. -/
def pulsed : Session MemoryArchive := (pulsing.dispatchNow Session.joined).atBodies

theorem reached_pulsed :
    ∃ past, Reached ⟨pulsed.atLoops, .loops pulsed.machine.agenda.takeLoops.1, past⟩ := by
  obtain ⟨news, joined, -⟩ := reached_dispatchNow reached_pulsing Session.joined
  have empty : (pulsing.dispatchNow Session.joined).inbox = [] := by
    refine List.eq_nil_of_length_eq_zero ?_
    decide +kernel
  have nothing : (pulsing.dispatchNow Session.joined).machine.agenda.advance.takeDelays.1 = [] := by
    refine List.eq_nil_of_length_eq_zero ?_
    decide +kernel
  have begun := reached_bodies joined empty
  rw [nothing] at begun
  exact ⟨_, begun.step .poll⟩

/-- The loop puts a body off and is stopped, and the body runs without a beat; had the loop not been
stopped, there would have been one. -/
theorem stopped_between_pulsing : ∃ (s : Session MemoryArchive) (past : List Happening)
    (t : LoopTask) (d : Delayed) (x y : Onset) (r : Repeat) (body : List Block) (c : Cursor),
    Reached ⟨s, .loops [t], past⟩ ∧ (s.pollLoop t).machine.agenda.delays = [d] ∧
      ((s.pollLoop t).stopLoop ⟨1⟩).2.Enters (.delayed d) x ∧
      Amid ((s.pollLoop t).stopLoop ⟨1⟩).2.limits x 0 y ∧ y.doing = .rounds r body c [] ∧
      r.mode = some .forever ∧
      Does ((s.pollLoop t).stopLoop ⟨1⟩).2.limits y.frame y.doing y.state [.looped r []]
        (.success, none) y.state ∧
      (((s.pollLoop t).stopLoop ⟨1⟩).2.runDelayed d).machine.world.mail.get? ⟨1⟩ = none ∧
      ((s.pollLoop t).runDelayed d).machine.world.mail.get? ⟨1⟩ = some ["beat"] := by
  obtain ⟨past, polls⟩ := reached_pulsed
  have stops : (pulsed.machine.agenda.takeLoops.1.map fun t =>
      (((pulsed.atLoops.pollLoop t).stopLoop ⟨1⟩).2.machine.signals.isRaised t.handle.signal,
        (pulsed.atLoops.pollLoop t).machine.agenda.delays.map fun d => d.body.map isEndless)) =
      [(true, [[true]])] := by
    decide +kernel
  have beats : (pulsed.machine.agenda.takeLoops.1.map fun t =>
      (pulsed.atLoops.pollLoop t).machine.agenda.delays.map fun d =>
        ((((pulsed.atLoops.pollLoop t).stopLoop ⟨1⟩).2.runDelayed d).machine.world.mail.get? ⟨1⟩,
          ((pulsed.atLoops.pollLoop t).runDelayed d).machine.world.mail.get? ⟨1⟩)) =
      [[(none, some ["beat"])]] := by
    decide +kernel
  have quiet : pulsed.atLoops.machine.agenda.delays = [] := by
    refine List.eq_nil_of_length_eq_zero ?_
    decide +kernel
  generalize pulsed.machine.agenda.takeLoops.1 = due at polls stops beats
  generalize pulsed.atLoops = s at polls stops beats quiet
  obtain ⟨t, rfl, known⟩ := List.map_eq_singleton_iff.mp stops
  obtain ⟨raised, bodies⟩ := Prod.mk.inj known
  obtain ⟨d, alone, shape⟩ := List.map_eq_singleton_iff.mp bodies
  obtain ⟨b, sole, endless⟩ := List.map_eq_singleton_iff.mp shape
  rw [List.map_singleton, alone, List.map_singleton, List.singleton_inj, List.singleton_inj,
    Prod.mk.injEq] at beats
  obtain ⟨x, done⟩ := s.exists_performs (.iteration t)
  have waits : d ∈ (Job.run s (.iteration t)).machine.agenda.delays := by
    show d ∈ (s.pollLoop t).machine.agenda.delays
    rw [alone]
    exact List.mem_singleton_self d
  rcases done.mem_delays waits with before | begets
  · rw [quiet] at before
    cases before
  · cases begets with
    | defers put =>
        obtain ⟨r, c, isForever, amid⟩ :=
          amid_endless ((s.pollLoop t).stopLoop ⟨1⟩).2.limits endless
        rw [← sole] at amid
        obtain ⟨heeds, -⟩ := stopped_between polls rfl put ((s.pollLoop t).stopLoop ⟨1⟩).2
        exact ⟨s, past, t, d, _, _, r, b.children, c, polls, alone, .delayed, amid, rfl, isForever,
          (heeds raised .delayed amid rfl).2, beats.1, beats.2⟩

end Chronicle

end Blockwork
