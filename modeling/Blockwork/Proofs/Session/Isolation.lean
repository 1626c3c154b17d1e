import Blockwork.Proofs.Archive
import Blockwork.Proofs.Document.Scripts
import Blockwork.Proofs.Handlers
import Blockwork.Proofs.Session.Operations
import Blockwork.Proofs.Session.Units

/-!
# Owners are isolated

What one actor does to a session leaves the script, the handlers and the stored document of another
alone.  An actor does four things to a session: the actor's events are dispatched, the actor's script is
edited, lines of it are turned on or off, and the actor departs.

## What is load-bearing

Scripts are found under the actor they were loaded for, while handlers and stored documents go by the
owner that is written in the script.  The two agree for a script that was installed or made, but
nobody compares them for one that comes out of the archive.  `untouched_iff` says that this is the
only gap: another actor is out of reach exactly if the script filed for the acting one does not name
the other as its owner.
-/

namespace Blockwork.Session

variable {σ : Type}

section Statement

variable [Archive σ]

/-- The script that the operations of an actor work on: the one that is loaded or else the one that the
archive has. -/
def Filed (s : Session σ) (actor : ActorId) (script : Script) : Prop :=
  s.scripts.get? actor = some script ∨
    s.scripts.get? actor = none ∧
      ∃ supply, Archive.load s.archive actor s.supply = .ok (some (script, supply))

/-- What an actor can do to a session.  An edit may do anything to a script but change its owner. -/
inductive Acts (actor : ActorId) (s : Session σ) : Session σ → Prop where
  /-- An event of the actor is handed over. -/
  | dispatch (e : Event) (own : e.actor = actor) : Acts actor s (s.dispatch e)
  /-- An event of the actor is taken from the inbox. -/
  | dispatchNow (e : Event) (own : e.actor = actor) : Acts actor s (s.dispatchNow e)
  /-- The actor's script is edited. -/
  | edit (change : Script → Script) (keeps : ∀ script, (change script).ownerId = script.ownerId)
      {s' : Session σ} (done : s.edit actor change = .ok s') : Acts actor s s'
  /-- A line of the actor's script is turned on or off. -/
  | setLineEnabled (line : Nat) (enabled : Bool) {s' : Session σ}
      (done : s.setLineEnabled actor line enabled = .ok s') : Acts actor s s'
  /-- The actor departs. -/
  | depart : Acts actor s (s.depart actor).2

/-- Nothing of an actor has changed: not the script, not the handlers and not the document. -/
structure Untouched [Shelved σ] (actor : ActorId) (s s' : Session σ) : Prop where
  /-- The loaded script is the same. -/
  script : s'.scripts.get? actor = s.scripts.get? actor
  /-- The handlers are the same. -/
  handlers : s'.handlers.entriesOf actor = s.handlers.entriesOf actor
  /-- The stored document is the same. -/
  document : Shelved.place s'.archive actor = Shelved.place s.archive actor

end Statement

variable [Archive σ] [Shelved σ] {s s' s'' : Session σ} {a b : ActorId}

namespace Untouched

theorem refl (b : ActorId) (s : Session σ) : Untouched b s s := ⟨rfl, rfl, rfl⟩

theorem trans (h : Untouched b s s') (h' : Untouched b s' s'') : Untouched b s s'' :=
  ⟨h'.script.trans h.script, h'.handlers.trans h.handlers, h'.document.trans h.document⟩

end Untouched

/-- Units of work are for one actor. -/
theorem WorksFor.untouched (h : WorksFor a s s') (distinct : a ≠ b) : Untouched b s s' where
  script := h.others b (Ne.symm distinct)
  handlers := by rw [h.handlers]
  document := by rw [h.archive]

/-! ## Loading -/

/-- Loading touches the owner that the script names, and what is loaded afterwards is what was
filed. -/
theorem ensureLoaded_untouched {found : Bool} (distinct : a ≠ b)
    (named : ∀ script, s.Filed a script → script.ownerId ≠ b)
    (h : s.ensureLoaded a = .ok (found, s')) :
    Untouched b s s' ∧ ∀ script, s'.scripts.get? a = some script → script.ownerId ≠ b := by
  rcases ensureLoaded_eq_ok_iff.mp h with ⟨_, -, -, rfl⟩ | ⟨-, -, -, rfl⟩ |
    ⟨script, supply, absent, read, -, rfl⟩
  · exact ⟨.refl b s', fun script loaded => named script (.inl loaded)⟩
  · exact ⟨.refl b s', fun script loaded => named script (.inl loaded)⟩
  · have other : script.ownerId ≠ b := named script (.inr ⟨absent, supply, read⟩)
    refine ⟨⟨Table.get?_insert_of_ne _ _ distinct, ?_, rfl⟩, fun script' loaded => ?_⟩
    · exact Handlers.entriesOf_register_of_ne _ _ other
    · rw [Table.get?_insert_self] at loaded
      cases loaded
      exact other

/-! ## The operations -/

theorem dispatchNow_untouched (distinct : a ≠ b)
    (named : ∀ script, s.Filed a script → script.ownerId ≠ b) {e : Event} (own : e.actor = a) :
    Untouched b s (s.dispatchNow e) := by
  unfold dispatchNow
  cases loading : s.ensureLoaded e.actor with
  | error _ => exact .refl b s
  | ok result =>
      rw [own] at loading
      refine (ensureLoaded_untouched distinct named loading).1.trans ?_
      refine WorksFor.untouched (WorksFor.foldl (fun h mem s => ?_) _) distinct
      -- every line that reacts belongs to the acting actor
      rw [← own, ← Handlers.owner_of_mem_matching mem]
      exact s.runHandler_worksFor h e

theorem replaced_untouched (distinct : a ≠ b) {script : Script} (other : script.ownerId ≠ b) :
    Untouched b s (s.replaced a script) where
  script := Table.get?_insert_of_ne _ _ distinct
  handlers := Handlers.entriesOf_register_of_ne _ _ other
  document := rfl

theorem edit_untouched (distinct : a ≠ b)
    (named : ∀ script, s.Filed a script → script.ownerId ≠ b) {change : Script → Script}
    (keeps : ∀ script, (change script).ownerId = script.ownerId)
    (h : s.edit a change = .ok s') : Untouched b s s' := by
  obtain ⟨found, s₁, loading, rfl⟩ := edit_eq_ok_iff.mp h
  obtain ⟨loaded, named⟩ := ensureLoaded_untouched distinct named loading
  refine loaded.trans (replaced_untouched distinct ?_)
  show (change _).ownerId ≠ b
  rw [keeps]
  cases present : s₁.scripts.get? a with
  | some script => exact named script present
  | none =>
      -- A blank script names the actor it is made for.
      exact distinct

theorem setLineEnabled_untouched (distinct : a ≠ b) {line : Nat} {enabled : Bool}
    (h : s.setLineEnabled a line enabled = .ok s') : Untouched b s s' := by
  unfold setLineEnabled at h
  split at h
  · cases h
  split at h
  · cases h
    exact ⟨Table.get?_insert_of_ne _ _ distinct, rfl, rfl⟩
  · cases h

theorem depart_untouched (distinct : a ≠ b)
    (named : ∀ script, s.Filed a script → script.ownerId ≠ b) :
    Untouched b s (s.depart a).2 := by
  rw [depart_eq]
  refine ⟨?_, Handlers.entriesOf_unregister_of_ne s.handlers distinct, ?_⟩
  · show (s.scripts.erase a).get? b = _
    rw [Table.get?_erase, if_neg distinct]
  · cases loaded : s.scripts.get? a with
    | none => rfl
    | some script => exact Shelved.place_save s.archive script (named script (.inl loaded))

/-- What an actor does stays with the owners that the actor's script names. -/
theorem untouched_of_acts (distinct : a ≠ b)
    (named : ∀ script, s.Filed a script → script.ownerId ≠ b) (h : Acts a s s') :
    Untouched b s s' := by
  cases h with
  | dispatch e own =>
      unfold dispatch
      split
      · exact dispatchNow_untouched distinct named own
      · exact ⟨rfl, rfl, rfl⟩
  | dispatchNow e own => exact dispatchNow_untouched distinct named own
  | edit change keeps done => exact edit_untouched distinct named keeps done
  | setLineEnabled line enabled done => exact setLineEnabled_untouched distinct done
  | depart => exact depart_untouched distinct named

/-! ## A script that names someone else -/

omit [Shelved σ] in
/-- What is filed can be edited, and the edited script is registered for the owner it names. -/
theorem edit_filed {script : Script} (filed : s.Filed a script) (change : Script → Script)
    (keeps : ∀ script, (change script).ownerId = script.ownerId) :
    ∃ s', s.edit a change = .ok s' ∧ ∃ script₁, script₁.ownerId = script.ownerId ∧
      (s'.handlers.entriesOf script.ownerId).length =
        (change script₁).lines.countP fun l => l.eventKind.isSome := by
  have loads : ∃ s₁ script₁, s.ensureLoaded a = .ok (true, s₁) ∧
      s₁.scripts.get? a = some script₁ ∧ script₁.ownerId = script.ownerId := by
    rcases filed with loaded | ⟨absent, supply, read⟩
    · exact ⟨s, script, ensureLoaded_eq_ok_iff.mpr (.inl ⟨script, loaded, rfl, rfl⟩), loaded, rfl⟩
    · exact ⟨_, script.rebuildFunctions,
        ensureLoaded_eq_ok_iff.mpr (.inr (.inr ⟨script, supply, absent, read, rfl, rfl⟩)),
        Table.get?_insert_self _ _ _, rfl⟩
  obtain ⟨s₁, script₁, loading, present, owner⟩ := loads
  refine ⟨_, edit_eq_ok_iff.mpr ⟨true, s₁, loading, rfl⟩, script₁, owner, ?_⟩
  rw [present, Option.getD_some, ← owner, ← keeps script₁]
  exact Handlers.length_entriesOf_register _ _

/-- The edit that puts other lines in the place of a script's. -/
def relined (lines : List Line) (script : Script) : Script := { script with lines := lines }

/-- The actor of a script that names another as its owner can change the other's handlers: no list
of handlers is both that of a script without lines and that of a script with one. -/
theorem exists_touched {script : Script} (filed : s.Filed a script) :
    ∃ s', Acts a s s' ∧ ¬ Untouched script.ownerId s s' := by
  let line : Line := { name := "", blocks := [⟨.nil, .event (some .join), []⟩] }
  obtain ⟨s₁, emptied, _, -, no⟩ := edit_filed filed (relined []) fun _ => rfl
  obtain ⟨s₂, filled, _, -, one⟩ := edit_filed filed (relined [line]) fun _ => rfl
  by_contra! untouched
  have first := (untouched s₁ (.edit (relined []) (fun _ => rfl) emptied)).handlers
  have second := (untouched s₂ (.edit (relined [line]) (fun _ => rfl) filled)).handlers
  -- both edits would leave the other's handlers as they were
  rw [first] at no
  rw [second, no] at one
  cases one

/-- **When two actors are isolated.** Nothing that the first does touches the script, the handlers or
the document of the second, exactly if the script that is filed for the first does not name the
second as its owner. -/
theorem untouched_iff (s : Session σ) (distinct : a ≠ b) :
    (∀ s', Acts a s s' → Untouched b s s') ↔
      ∀ script, s.Filed a script → script.ownerId ≠ b := by
  constructor
  · rintro untouched script filed rfl
    obtain ⟨s', acts, touched⟩ := exists_touched filed
    exact touched (untouched s' acts)
  · intro named s' acts
    exact untouched_of_acts distinct named acts

/-- A script that names the second actor as its owner. -/
def strayScript : Script := { ownerId := ⟨2⟩, ownerName := "bea", lastModified := ⟨0, 0⟩ }

/-- A session over a folder in which that script lies in the file of the first actor. -/
def straySession : Session FolderArchive :=
  .start {} {} .refusing (({} : FolderArchive).put (FolderArchive.fileName ⟨1⟩) strayScript.toText)

/-- The first actor can then touch what belongs to the second. -/
theorem not_untouched_straySession :
    ¬ ∀ s', Acts ⟨1⟩ straySession s' → Untouched ⟨2⟩ straySession s' := by
  rw [untouched_iff straySession (by decide)]
  intro named
  have owner : (Script.ofText strayScript.toText ⟨0⟩).toOption.map (fun r => r.1.ownerId) =
      some ⟨2⟩ := by
    rw [Script.ofText_toText]
    decide +kernel
  cases result : Script.ofText strayScript.toText ⟨0⟩ with
  | error e =>
      rw [result] at owner
      cases owner
  | ok r =>
      rw [result] at owner
      refine named r.1 (.inr ⟨rfl, r.2, ?_⟩) (Option.some.inj owner)
      show Archive.read strayScript.toText ⟨0⟩ = _
      rw [Archive.read, result]

end Blockwork.Session
