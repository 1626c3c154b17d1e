import Blockwork.Proofs.Machine.Loops

/-!
# Runs that leave the agenda

Only two things put work on the agenda: a delay and a loop over ticks.  Everything else that a run
does, up to and including the stopping of a loop, leaves the agenda as it is, hands out no signal and
takes back none that has been raised.  `Run.Idles` says so, and it is closed under what blocks do.
-/

namespace Blockwork

/-- The agenda is the same, no signal has been handed out, and those that were raised still are. -/
structure Machine.Idle (m m' : Machine) : Prop where
  /-- Nothing comes or goes. -/
  agenda : m'.agenda = m.agenda
  /-- The next signal is the same. -/
  next : m'.signals.next = m.signals.next
  /-- A signal is raised for good. -/
  raised : ∀ x, m.signals.isRaised x = true → m'.signals.isRaised x = true

namespace Machine.Idle

variable {m m' m'' : Machine}

@[refl] theorem refl (m : Machine) : Idle m m := ⟨rfl, rfl, fun _ h => h⟩

theorem trans (h : Idle m m') (h' : Idle m' m'') : Idle m m'' :=
  ⟨h'.agenda.trans h.agenda, h'.next.trans h.next, fun x hx => h'.raised x (h.raised x hx)⟩

/-- Machines with the same agenda and signals. -/
theorem of_eq (agenda : m'.agenda = m.agenda) (signals : m'.signals = m.signals) : Idle m m' := by
  refine ⟨agenda, congrArg Signals.next signals, fun x hx => ?_⟩
  rw [signals]
  exact hx

theorem world (m : Machine) (w : World) : Idle m { m with world := w } := .of_eq rfl rfl

theorem contradict (m : Machine) : Idle m m.contradict := .of_eq rfl rfl

theorem requestStop (m : Machine) (a : ActorId) : Idle m (m.requestStop a).2 := by
  have raised := (m.ages_requestStop a).raised
  rcases m.requestStop_cases a with ⟨-, same⟩ | ⟨handle, -, same⟩
  · rw [same]
  · rw [same] at raised ⊢
    exact ⟨rfl, m.signals.next_raise handle.signal, raised⟩

end Machine.Idle

/-- Whatever a run does, it leaves the agenda. -/
def Run.Idles {α : Type} (r : Run α) : Prop := ∀ st, Machine.Idle st.machine (r.run st).2.machine

namespace Run.Idles

variable {α β : Type}

/-- A run that leaves the machine. -/
theorem of_machine_eq {r : Run α} (same : ∀ st, (r.run st).2.machine = st.machine) : Idles r := by
  intro st
  rw [same]

theorem pure (x : α) : Idles (Pure.pure x : Run α) := of_machine_eq fun _ => rfl

theorem bind {r : Run α} {k : α → Run β} (hr : Idles r) (hk : ∀ x, Idles (k x)) :
    Idles (r >>= k) := by
  intro st
  exact (hr st).trans (hk (r.run st).1 (r.run st).2)

/-- All that single blocks do leaves the agenda. -/
theorem closed : Closed Idles where
  pure := pure
  bind := bind
  scene _ := of_machine_eq fun _ => rfl
  changeScope _ := of_machine_eq fun _ => rfl
  roll _ _ := .of_eq rfl rfl
  useEffects _ _ := .of_eq rfl rfl
  changeWorld _ st := .world st.machine _

/-- So does the note of a contradiction. -/
theorem contradict : Idles (Run.changeMachine Machine.contradict) := fun st => .contradict st.machine

/-- So does the stopping of a loop. -/
theorem stopLoop (f : Frame) : Idles (Run.stopLoop f) := by
  have stops : Idles (Run.changeMachine fun m => (m.requestStop f.actor).2) :=
    fun st => .requestStop st.machine f.actor
  exact stops.bind fun _ => pure _

end Run.Idles

end Blockwork
