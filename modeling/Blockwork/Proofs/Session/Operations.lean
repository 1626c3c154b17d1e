import Blockwork.Proofs.Table
import Blockwork.Session

/-!
# What the operations of a session do

One description for each operation that a host has besides events and ticks, so that later
arguments need not open it again.  Editing loads or makes a script and puts another in its place
(`edit_eq_ok_iff`); departing is described part by part.
-/

namespace Blockwork.Session

variable {σ : Type} {s s' : Session σ} {a : ActorId}

/-! ## Installing -/

/-- A session with a script that has been installed. -/
def holding (s : Session σ) (script : Script) : Session σ :=
  { s with
    handlers := s.handlers.register script.rebuildFunctions
    scripts := s.scripts.insert script.ownerId script.rebuildFunctions
    dirty := s.dirty.insert script.ownerId () }

/-- A script without problems is installed. -/
theorem install_eq_ok {script : Script} (valid : script.problems = []) :
    s.install script = .ok (s.holding script) := by
  unfold install Script.validate
  rw [valid]
  rfl

/-! ## Loading -/

/-- A script is loaded already, or the archive has none, or it is taken from the archive. -/
theorem ensureLoaded_eq_ok_iff [Archive σ] {found : Bool} :
    s.ensureLoaded a = .ok (found, s') ↔
      (∃ script, s.scripts.get? a = some script ∧ found = true ∧ s' = s) ∨
      (s.scripts.get? a = none ∧ Archive.load s.archive a s.supply = .ok none ∧
        found = false ∧ s' = s) ∨
      (∃ script supply, s.scripts.get? a = none ∧
        Archive.load s.archive a s.supply = .ok (some (script, supply)) ∧ found = true ∧
        s' = { s with
          supply := supply
          handlers := s.handlers.register script.rebuildFunctions
          scripts := s.scripts.insert a script.rebuildFunctions }) := by
  unfold ensureLoaded
  cases loaded : s.scripts.get? a with
  | some script =>
      have present : s.scripts.contains a = true := Table.contains_iff.mpr ⟨script, loaded⟩
      simp [present, eq_comm]
  | none =>
      have absent : s.scripts.contains a = false := Table.contains_eq_false_iff.mpr loaded
      rw [absent]
      rcases Archive.load s.archive a s.supply with e | _ | ⟨script, supply⟩
      · simp
      · simp [eq_comm]
      · constructor
        · intro h
          cases h
          exact .inr (.inr ⟨script, supply, rfl, rfl, rfl, rfl⟩)
        · rintro (⟨_, h, -⟩ | ⟨-, h, -⟩ | ⟨_, _, -, h, rfl, rfl⟩)
          · cases h
          · cases h
          · cases h
            rfl

/-- After loading, there is a script exactly if one was found. -/
theorem get?_of_ensureLoaded [Archive σ] {found : Bool} (h : s.ensureLoaded a = .ok (found, s')) :
    found = true ↔ ∃ script, s'.scripts.get? a = some script := by
  rcases ensureLoaded_eq_ok_iff.mp h with ⟨script, loaded, rfl, rfl⟩ | ⟨absent, -, rfl, rfl⟩ |
    ⟨script, supply, -, -, rfl, rfl⟩
  · exact iff_of_true rfl ⟨script, loaded⟩
  · simp [absent]
  · exact iff_of_true rfl ⟨_, Table.get?_insert_self _ _ _⟩

/-! ## Editing -/

/-- A session in which a script takes the place of an actor's, is registered and marked as
changed. -/
def replaced (s : Session σ) (a : ActorId) (script : Script) : Session σ :=
  { s with
    scripts := s.scripts.insert a script
    handlers := s.handlers.register script
    dirty := s.dirty.insert a () }

/-- An edit puts the changed script in the place of the one that is found, or of a blank one. -/
theorem edit_eq_ok_iff [Archive σ] {change : Script → Script} :
    s.edit a change = .ok s' ↔
      ∃ found s₁, s.ensureLoaded a = .ok (found, s₁) ∧
        s' = s₁.replaced a ((change ((s₁.scripts.get? a).getD (s₁.blankScript a))).rebuildFunctions.touch
          s₁.now) := by
  unfold edit
  cases loading : s.ensureLoaded a with
  | error e => simp
  | ok result =>
      obtain ⟨found, s₁⟩ := result
      have found_iff := get?_of_ensureLoaded loading
      cases present : s₁.scripts.get? a with
      | some script =>
          obtain rfl : found = true := found_iff.mpr ⟨script, present⟩
          simp [present, replaced, markDirty, eq_comm]
      | none =>
          have found : found = false := by
            rw [Bool.eq_false_iff]
            intro h
            obtain ⟨script, loaded⟩ := found_iff.mp h
            rw [present] at loaded
            cases loaded
          subst found
          simp [Table.get?_insert_self, Table.insert_insert, present, replaced, markDirty, eq_comm]

/-! ## Departing -/

section Depart

variable [Archive σ] (s : Session σ) (a : ActorId)

theorem depart_eq :
    (s.depart a).2 = { s with
      machine := (s.machine.requestStop a).2.cancelActor a
      handlers := s.handlers.unregister a
      dirty := s.dirty.erase a
      archive := ((s.scripts.get? a).map fun script => (Archive.save s.archive script).2).getD s.archive
      scripts := s.scripts.erase a } := by
  unfold depart
  dsimp only
  cases loaded : s.scripts.get? a with
  | none =>
      rw [Table.erase_of_get?_eq_none loaded]
      rfl
  | some script =>
      dsimp only
      cases (Archive.save s.archive script).1 with
      | ok _ => rfl
      | error _ => rfl

end Depart

end Blockwork.Session
