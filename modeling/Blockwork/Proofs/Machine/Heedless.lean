import Blockwork.Proofs.Machine.Nesting

/-!
# What takes notice of a stop

When a loop is told to stop, its signal is raised and its slot is emptied.  Nothing but a loop looks at
either.  So a run in which no `REPEAT` block runs does the same whatever the slots and signals are
(`Does.heedless`), and a loop at once in a frame whose signal is raised ends before its first
iteration, however deep in the run it is (`Amid.halted`).

## What is load-bearing

To stop a loop changes slots and signals, and in which way depends on them.  Therefore `Run.Heedless`
does not ask that two runs leave the same slots and signals, only that all else is the same.
-/

namespace Blockwork

open Interpreter

/-- A machine with other slots and signals. -/
def Machine.withLoops (m : Machine) (slots : LoopSlots) (signals : Signals) : Machine :=
  { m with slots := slots, signals := signals }

/-- A state with other slots and signals. -/
def RunState.withLoops (st : RunState) (slots : LoopSlots) (signals : Signals) : RunState :=
  { st with machine := st.machine.withLoops slots signals }

/-- To tell a loop to stop changes nothing but slots and signals. -/
theorem Machine.exists_requestStop_eq (m : Machine) (a : ActorId) :
    ∃ slots signals, (m.requestStop a).2 = m.withLoops slots signals := by
  rcases m.requestStop_cases a with ⟨-, same⟩ | ⟨handle, -, same⟩
  · exact ⟨m.slots, m.signals, same⟩
  · exact ⟨_, _, same⟩

/-- With other slots and signals, a run yields the same and leaves the same, but for slots and
signals. -/
def Run.Heedless {α : Type} (r : Run α) : Prop := ∀ st slots signals, ∃ slots' signals',
  r.run (st.withLoops slots signals) = ((r.run st).1, (r.run st).2.withLoops slots' signals')

namespace Run.Heedless

variable {α β : Type}

/-- A run that leaves slots and signals. -/
theorem of_run_eq {r : Run α} (same : ∀ st slots signals,
    r.run (st.withLoops slots signals) = ((r.run st).1, (r.run st).2.withLoops slots signals)) :
    Heedless r :=
  fun st slots signals => ⟨slots, signals, same st slots signals⟩

theorem pure (x : α) : Heedless (Pure.pure x : Run α) := of_run_eq fun _ _ _ => rfl

theorem bind {r : Run α} {k : α → Run β} (h : Heedless r) (h' : ∀ x, Heedless (k x)) :
    Heedless (r >>= k) := by
  intro st slots signals
  obtain ⟨slots', signals', first⟩ := h st slots signals
  obtain ⟨slots'', signals'', rest⟩ := h' (r.run st).1 (r.run st).2 slots' signals'
  exact ⟨slots'', signals'', (Run.bind_eq first).trans rest⟩

/-- All that single blocks do is done without regard to slots and signals. -/
theorem closed : Closed Heedless where
  pure := pure
  bind := bind
  scene _ := of_run_eq fun _ _ _ => rfl
  changeScope _ := of_run_eq fun _ _ _ => rfl
  roll _ := of_run_eq fun _ _ _ => rfl
  useEffects _ := of_run_eq fun _ _ _ => rfl
  changeWorld _ := of_run_eq fun _ _ _ => rfl

/-- So is a contradiction noted. -/
theorem contradict : Heedless (Run.changeMachine Machine.contradict) := of_run_eq fun _ _ _ => rfl

/-- So is the stopping of a loop. -/
theorem stopLoop (f : Frame) : Heedless (Run.stopLoop f) := by
  refine bind (fun st slots signals => ?_) fun _ => pure _
  obtain ⟨slots', signals', same⟩ :=
    (st.machine.withLoops slots signals).exists_requestStop_eq f.actor
  obtain ⟨slots'', signals'', stopped⟩ := st.machine.exists_requestStop_eq f.actor
  refine ⟨slots', signals', Prod.ext rfl ?_⟩
  show RunState.mk st.scope ((st.machine.withLoops slots signals).requestStop f.actor).2 =
    RunState.mk st.scope ((st.machine.requestStop f.actor).2.withLoops slots' signals')
  rw [same, stopped]
  rfl

/-- A body is put off whatever the slots and signals are. -/
theorem putOff (f : Frame) (wait : Float) (body : List Block) :
    Heedless (Interpreter.putOff f wait body) :=
  of_run_eq fun _ _ _ => rfl

end Run.Heedless

/-! ## Runs without `REPEAT` blocks -/

/-- Something to be done that is not a loop. -/
def Doing.IsNoLoop : Doing → Prop
  | .instruction _ _ i => ∀ r, i ≠ .repeat_ r
  | .rounds _ _ _ _ => False
  | _ => True

/-- None of the blocks that have run is a `REPEAT` block. -/
def Deed.WithoutRepeat (deeds : List Deed) : Prop :=
  ∀ f b o, .ran f b o ∈ deeds → ∀ r, b.instruction ≠ .repeat_ r

theorem Deed.withoutRepeat_append {deeds deeds' : List Deed} :
    WithoutRepeat (deeds ++ deeds') ↔ WithoutRepeat deeds ∧ WithoutRepeat deeds' := by
  constructor
  · exact fun h => ⟨fun f b o mem => h f b o (List.mem_append_left _ mem),
      fun f b o mem => h f b o (List.mem_append_right _ mem)⟩
  · exact fun h f b o mem => (List.mem_append.mp mem).elim (h.1 f b o) (h.2 f b o)

open Run (Heedless) in
/-- Only a loop looks at slots and signals. -/
theorem Interpreter.heedless_choose (limits : Limits) (f : Frame) (previous : Option Bool)
    (children : List Block) {i : Instruction} (other : ∀ r, i ≠ .repeat_ r) :
    Heedless (choose limits f previous children i) :=
  Heedless.closed.writing.choose limits previous
    (fun m _ => Heedless.closed.mathStep (fun _ => .contradict) f m) (.stopLoop f)
    (fun wait => .putOff f wait children) fun r same => absurd same (other r)

/-- **A run in which no `REPEAT` block runs does the same whatever the slots and signals are.** -/
theorem Does.heedless {limits : Limits} {f : Frame} {doing : Doing} {st st' : RunState}
    {deeds : List Deed} {r : Outcome × Option Bool} (h : Does limits f doing st deeds r st')
    (noLoop : doing.IsNoLoop) (without : Deed.WithoutRepeat deeds) (slots : LoopSlots)
    (signals : Signals) : ∃ slots' signals',
      Does limits f doing (st.withLoops slots signals) deeds r (st'.withLoops slots' signals') := by
  induction h generalizing slots signals with
  | @settled f previous children i st st' o held chose =>
      obtain ⟨slots', signals', same⟩ :=
        heedless_choose limits f previous children noLoop st slots signals
      rw [chose] at same
      exact ⟨slots', signals', .settled same⟩
  | @postponed f previous children i st st' wait d chose =>
      obtain ⟨slots', signals', same⟩ :=
        heedless_choose limits f previous children noLoop st slots signals
      rw [chose] at same
      exact ⟨slots', signals', .postponed same⟩
  | spread chose =>
      obtain ⟨isRepeat, -⟩ := fits_of_choose chose
      exact absurd isRepeat (noLoop _)
  | @within f g previous held children i st st₁ st' deeds o chose inside ih =>
      obtain ⟨slots₁, signals₁, same⟩ :=
        heedless_choose limits f previous children noLoop st slots signals
      rw [chose] at same
      obtain ⟨slots', signals', rest⟩ := ih trivial without slots₁ signals₁
      exact ⟨slots', signals', .within same rest⟩
  | loop chose _ _ =>
      obtain ⟨isRepeat, -⟩ := fits_of_choose chose
      exact absurd isRepeat (noLoop _)
  | @call f previous children i st st₁ st' deeds c o chose calls ih =>
      obtain ⟨slots₁, signals₁, same⟩ :=
        heedless_choose limits f previous children noLoop st slots signals
      rw [chose] at same
      obtain ⟨slots', signals', rest⟩ := ih trivial without slots₁ signals₁
      exact ⟨slots', signals', .call same rest⟩
  | @block f previous id i children st st₁ deeds r inside ih =>
      obtain ⟨before, last⟩ := Deed.withoutRepeat_append.mp without
      obtain ⟨slots', signals', same⟩ :=
        ih (last f ⟨id, i, children⟩ r.1 (List.mem_singleton_self _)) before slots signals
      exact ⟨slots', signals', .block same⟩
  | nil => exact ⟨slots, signals, .nil⟩
  | stop _ failed ih =>
      obtain ⟨slots', signals', same⟩ := ih trivial without slots signals
      exact ⟨slots', signals', .stop same failed⟩
  | go _ succeeded _ ih ih' =>
      obtain ⟨before, after⟩ := Deed.withoutRepeat_append.mp without
      obtain ⟨slots₁, signals₁, first⟩ := ih trivial before slots signals
      obtain ⟨slots', signals', others⟩ := ih' trivial after slots₁ signals₁
      exact ⟨slots', signals', .go first succeeded others⟩
  | cancelled _ | ended _ _ | last _ _ _ _ _ | next _ _ _ _ _ _ _ => exact noLoop.elim
  | tooDeep full => exact ⟨slots, signals, .tooDeep full⟩
  | refused room found => exact ⟨slots, signals, .refused room found⟩
  | @entered f c st st₁ st' head b values deeds o o' room found inside left ih =>
      have inner : Deed.WithoutRepeat deeds := fun f b o mem =>
        without f b o (List.mem_cons_of_mem _ mem)
      obtain ⟨slots₁, signals₁, body⟩ := ih trivial inner slots signals
      obtain ⟨slots', signals', same⟩ := Run.Heedless.closed.leave f c ⟨f, st.scope⟩
        (bindParameters ⟨f, st.scope⟩ head.parameters values).frame o st₁ slots₁ signals₁
      rw [left] at same
      exact ⟨slots', signals', .entered room found body same⟩

/-! ## Loops under a raised signal -/

/-- Whatever is done is done on behalf of the actor of the frame. -/
theorem Doing.stays (limits : Limits) (f : Frame) (doing : Doing) :
    Run.Stays f.actor (doing.run limits f) := by
  have calls : CallsStay f.actor (f.caller limits) := callsStay_call _
  have siblings (g : Frame) (own : g.actor = f.actor) (previous : Option Bool) (bs : List Block) :
      Run.Stays f.actor (Interpreter.blocks limits (f.caller limits) g previous bs) :=
    stays_blocks calls own previous bs
  cases doing with
  | instruction previous children i =>
      exact stays_perform calls rfl previous children (fun g own => siblings g own none children) i
  | block previous b => exact stays_block calls rfl previous b
  | siblings previous bs => exact (siblings f rfl previous bs).bind fun _ => .pure _
  | rounds r body c counts =>
      exact (Loop.stays_cycle (siblings f rfl none body) _ c).bind fun _ => .pure _
  | call c => exact (calls f c rfl).bind fun _ => .pure _

variable {limits : Limits} {x y : Onset} {n : Nat}

/-- Whatever is done, no signal is taken back. -/
theorem Does.ages {f : Frame} {doing : Doing} {st st' : RunState} {deeds : List Deed}
    {r : Outcome × Option Bool} (h : Does limits f doing st deeds r st') :
    st.machine.Ages st'.machine := by
  have changes := doing.stays limits f st
  rw [h.sound] at changes
  have keeps : Machine.Keeps [] [] st.machine st'.machine := .of_changes changes
  exact keeps.ages

theorem Begins.raised (h : Begins limits x n y) (signal : Signal)
    (raised : x.state.machine.signals.isRaised signal = true) :
    y.state.machine.signals.isRaised signal = true := by
  have opens {f : Frame} {c : Cursor} {st st₁ : RunState} {o : Option Outcome}
      (opened : (Loop.opens f c).run st = (o, st₁)) : st.machine.Idle st₁.machine := by
    have idle := Run.Idles.closed.opens f c st
    rwa [opened] at idle
  cases h with
  | within chose =>
      obtain ⟨idle, -⟩ := made_of_choose chose
      exact idle.raised signal raised
  | loop chose =>
      obtain ⟨idle, -⟩ := made_of_choose chose
      exact idle.raised signal raised
  | call chose =>
      obtain rfl := made_of_choose chose
      exact raised
  | block | first | entered _ _ => exact raised
  | others first _ => exact first.ages.raised signal raised
  | body _ opened => exact (opens opened).raised signal raised
  | @round f r body c c' counts st st₁ st₂ st₃ deeds o _ opened inside closed =>
      have idle := Run.Idles.closed.closes f c o st₂
      rw [closed] at idle
      exact idle.raised signal (inside.ages.raised signal ((opens opened).raised signal raised))

/-- The signal in the frame is raised, and what begins is not a later round of a loop at once. -/
structure Onset.Halted (x : Onset) : Prop where
  /-- The signal is raised. -/
  raised : x.state.machine.signals.isRaised x.frame.cancel = true
  /-- No round has been made. -/
  unbegun : ∀ r body c counts, x.doing = .rounds r body c counts → counts = []

theorem Begins.halted (h : Begins limits x n y) (halted : x.Halted) : y.Halted := by
  refine ⟨?_, ?_⟩
  · rw [h.kept.cancel]
    exact h.raised _ halted.raised
  · rintro r body c counts loops
    cases h with
    | loop chose =>
        cases loops
        rfl
    | round quiet _ _ _ => exact absurd (halted.raised.symm.trans quiet) nofun
    | within _ | call _ | block | first | others _ _ | body _ _ | entered _ _ => cases loops

/-- **Under a raised signal, a loop at once ends before its first iteration**, however deep in the run
it is, and changes nothing. -/
theorem Amid.halted (h : Amid limits x n y) (halted : x.Halted) {r : Repeat} {body : List Block}
    {c : Cursor} {counts : List Nat} (loops : y.doing = .rounds r body c counts) :
    counts = [] ∧ Does limits y.frame y.doing y.state [.looped r []] (.success, none) y.state := by
  have here : y.Halted := by
    induction h with
    | here => exact halted
    | into first _ ih => exact ih (first.halted halted) loops
  obtain rfl := here.unbegun r body c counts loops
  refine ⟨rfl, ?_⟩
  rw [loops]
  exact .cancelled here.raised

end Blockwork
