import Blockwork.Proofs.Document.Scripts
import Blockwork.Proofs.Session.Units
import Mathlib.Logic.Relation

/-!
# Scripts that have run can be stored

Running a script changes nothing about it but its globals, so what was read back from its document
before is read back afterwards, globals apart.  Whether the globals come back is up to their values:
a run may commit any value that a block has worked out.

## What is load-bearing

The condition on the values cannot be dropped.  A calculation refuses a result that has no decimal
form, but a change of a variable does not: a product that overflows is committed as it is, written
as `null`, and the document is refused when it is next read.  `savesAndLoads_iff` is therefore an
equivalence, for every state that events and ticks can reach.
-/

namespace Blockwork.Session

/-- A script is saved and, under its owner, loaded with the same globals. -/
def SavesAndLoads {σ : Type} [Archive σ] (a : σ) (supply : Uuid.Supply) (script : Script) : Prop :=
  ∃ a', Archive.save a script = (.ok (), a') ∧
    ∃ back supply', Archive.load a' script.ownerId supply = .ok (some (back, supply')) ∧
      back.globals = script.globals

/-- What a host does to let a session run: it hands over an event, asks for a tick, or lets the world
change. -/
inductive Runs {σ : Type} [Archive σ] : Session σ → Session σ → Prop where
  /-- An event. -/
  | dispatch (s : Session σ) (e : Event) : Runs s (s.dispatch e)
  /-- A tick. -/
  | tick (s : Session σ) : Runs s s.tick
  /-- Something that happens in the world. -/
  | world (s : Session σ) (w : World) : Runs s { s with machine := { s.machine with world := w } }

theorem Runs.grows {σ : Type} [Archive σ] {s s' : Session σ} (h : Runs s s') : Grows s s' := by
  cases h with
  | dispatch e => exact s.dispatch_grows e
  | tick => exact s.tick_grows
  | world w => exact s.withMachine_grows _

/-- Along a whole run no script is changed in anything but its globals. -/
theorem grows_of_run {σ : Type} [Archive σ] {s₀ s : Session σ}
    (run : Relation.ReflTransGen Runs s₀ s) : Grows s₀ s := by
  induction run with
  | refl => exact .refl s₀
  | tail _ step ih => exact ih.trans step.grows

/-- In memory, saving and loading is writing and reading a text. -/
theorem savesAndLoads_memory_iff (a : MemoryArchive) (supply : Uuid.Supply) (script : Script) :
    SavesAndLoads a supply script ↔
      ∃ back supply', Script.ofText script.toText supply = .ok (back, supply') ∧
        back.globals = script.globals := by
  have loaded : Archive.load (⟨a.documents.insert script.ownerId script.toText⟩ : MemoryArchive)
      script.ownerId supply = Archive.read script.toText supply := by
    simp only [Archive.load, Table.get?_insert_self]
  unfold SavesAndLoads
  constructor
  · rintro ⟨a', saved, back, supply', read, same⟩
    cases saved
    rw [loaded, Archive.read] at read
    split at read
    · next found => cases read; exact ⟨back, supply', found, same⟩
    · cases read
  · rintro ⟨back, supply', read, same⟩
    refine ⟨_, rfl, back, supply', ?_, same⟩
    rw [loaded, Archive.read, read]

/-- **When a script that has run can be saved and loaded.** The session starts with scripts that are
read back from their documents and runs in any way.  Then every loaded script comes back with the
same globals, exactly if each of them is storable; a script that was loaded only during the run must
itself have a head that is read back. -/
theorem savesAndLoads_iff {s₀ s : Session MemoryArchive}
    (start : ∀ o script, s₀.scripts.get? o = some script → script.ReadsBack)
    (run : Relation.ReflTransGen Runs s₀ s) {o : ActorId} {script : Script}
    (loaded : s.scripts.get? o = some script) (supply : Uuid.Supply) :
    SavesAndLoads s.archive supply script ↔
      (∀ name v, script.globals.get? name = some v → v.IsStorable Script.globalsDepth) ∧
        (s₀.scripts.contains o ∨ script.head.ReadsBack) := by
  have head : s₀.scripts.contains o → script.head.ReadsBack := by
    intro present
    obtain ⟨script₀, before⟩ := Table.contains_iff.mp present
    -- the run has changed nothing but the globals
    obtain ⟨g, after⟩ := grows_of_run run o script₀ before
    rw [loaded] at after
    cases after
    exact (start o script₀ before).head
  rw [savesAndLoads_memory_iff, Script.reads_globals_iff, and_comm]
  refine and_congr_right fun _ => ⟨.inr, ?_⟩
  rintro (present | back)
  · exact head present
  · exact back

/-- A script that notes a greeting when its owner joins. -/
def greeter : Script :=
  { ownerId := ⟨1⟩
    ownerName := "ada"
    lastModified := ⟨0, 0⟩
    lines := [{
      name := "greet"
      blocks := [
        ⟨⟨2⟩, .event (some .join), []⟩,
        ⟨⟨3⟩, .variable_ { op := some .set, name := "mood", value := some (.text "glad") }, []⟩] }] }

/-- The greeter after its owner has joined. -/
def greeted : Script := { greeter with globals := ({} : Table String Scalar).insert "mood" (.text "glad") }

/-- A session whose only script is the greeter. -/
def greeting : Session MemoryArchive :=
  { archive := {}
    scripts := ({} : Table ActorId Script).insert greeter.ownerId greeter
    handlers := ({} : Handlers).register greeter }

theorem readsBack_greeter : greeter.ReadsBack := by
  have read : (Script.ofText greeter.toText ⟨0⟩).isOk = true := by
    rw [Script.ofText_toText]
    decide +kernel
  refine ⟨⟨0⟩, ?_⟩
  cases result : Script.ofText greeter.toText ⟨0⟩ with
  | error e => rw [result] at read; cases read
  | ok r => exact ⟨r, rfl⟩

/-- The greeter still loads after its line has run. -/
theorem savesAndLoads_greeted :
    SavesAndLoads (greeting.dispatch ⟨.join, ⟨1⟩, {}, {}⟩).archive ⟨0⟩ greeted := by
  have start : ∀ o script, greeting.scripts.get? o = some script → script.ReadsBack := by
    intro o script loaded
    obtain ⟨-, rfl⟩ := Table.get?_single_eq_some.mp loaded
    exact readsBack_greeter
  refine (savesAndLoads_iff start (.single (.dispatch greeting _)) (o := ⟨1⟩) rfl ⟨0⟩).mpr
    ⟨fun name v found => ?_, .inl rfl⟩
  obtain ⟨-, rfl⟩ := Table.get?_single_eq_some.mp found
  exact Scalar.isStorable_text _ _

end Blockwork.Session
