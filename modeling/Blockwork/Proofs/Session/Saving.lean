import Blockwork.Proofs.Archive
import Blockwork.Proofs.Document.Persistence
import Blockwork.Proofs.Session.Tables
import Mathlib.Data.List.Perm.Basic

/-!
# What is saved and what is lost

A session keeps scripts in memory and marks those that have changed since they were saved.  The mark
is all there is between a change and the archive: `clean_stored` says that it can be relied on.  In
every state that a host can bring about without moving a script to another owner, however often the
archive fails, the document of a script without a mark is the script's.

Departing is the exception.  It takes the mark and the script away before it saves, and a save that
fails does not bring them back: `lost_of_depart_error`.

## What is load-bearing

* `Agrees`: the session keeps a script under the owner it was asked for, the archive under the owner
  that the script names.  An owner's document can only be compared with a script as long as these
  agree on the owner, and a mark is worth nothing once they do not (`unstored_strays`).
* `Filing.InPlace`: they come to disagree by an edit that changes the owner or by a document that is
  found under another.  A session never makes such a document itself.
* `Marks`: whatever a unit of work leaves without a mark, it leaves unchanged.
* `saves`: how the saves of a list of owners go, one after another.  Which of them fail is up to the
  archive, and the order is up to the table of marks, so `flushed` is stated for every order.
-/

namespace Blockwork

/-- The functions of a script that was read have been collected from its lines. -/
theorem Script.rebuildFunctions_of_ofText {text : String} {supply : Uuid.Supply}
    {r : Script × Uuid.Supply} (read : Script.ofText text supply = .ok r) :
    r.1.rebuildFunctions = r.1 := by
  unfold Script.ofText Script.ofNode at read
  split at read
  · cases read
  split at read
  · cases read
  · next d supply' _ =>
    unfold ScriptDocument.toScript at read
    split at read
    · cases read
    · cases read
      rfl

/-! ## Documents in their places -/

/-- Every document is kept under the owner that it names. -/
def Filing.InPlace {σ : Type} [Archive σ] [Filing σ] (archive : σ) : Prop :=
  ∀ o text, Filing.document? archive o = some text →
    ∀ supply r, Script.ofText text supply = .ok r → r.1.ownerId = o

namespace Filing.InPlace

variable {σ : Type} [Archive σ] [Filing σ] {archive archive' : σ}

theorem honest (h : InPlace archive) : Archive.Honest archive := by
  intro owner supply script supply' loaded
  obtain ⟨text, kept, read⟩ := Filing.document?_loaded loaded
  exact h owner text kept supply _ read

theorem of_documents (h : InPlace archive)
    (same : ∀ o, Filing.document? archive' o = Filing.document? archive o) : InPlace archive' := by
  intro o text kept
  exact h o text ((same o).symm.trans kept)

/-- A save files the script under the owner that its text names. -/
theorem save (h : InPlace archive) (script : Script) : InPlace (Archive.save archive script).2 := by
  rcases tried : Archive.save archive script with ⟨e | ⟨⟩, archive'⟩
  · exact h.of_documents (Filing.document?_failed tried)
  · intro o text kept supply r read
    rw [Filing.document?_saved tried] at kept
    split at kept
    · next own =>
      cases kept
      exact (Script.ownerId_of_ofText_toText read).trans own
    · exact h o text kept supply r read

end Filing.InPlace

namespace Session

variable {σ : Type} {s s' s'' : Session σ} {a : ActorId}

/-- Every script is kept under the owner that it names. -/
def Agrees (s : Session σ) : Prop :=
  ∀ key script, s.scripts.get? key = some script → script.ownerId = key

/-- The document that is kept for an owner is a script's: its text, or one that is read as it. -/
def Stored [Archive σ] [Filing σ] (archive : σ) (owner : ActorId) (script : Script) : Prop :=
  ∃ text, Filing.document? archive owner = some text ∧
    (text = script.toText ∨ ∃ supply supply', Script.ofText text supply = .ok (script, supply'))

/-- The script of an owner is stored, if one is loaded and it has no mark. -/
def Clean [Archive σ] [Filing σ] (o : ActorId) (s : Session σ) : Prop :=
  ∀ script, s.scripts.get? o = some script → s.dirty.get? o = none → Stored s.archive o script

/-! ## Changes are marked -/

/-- Whatever has no mark afterwards had none before and is unchanged. -/
structure Marks (s s' : Session σ) : Prop where
  /-- Nothing is stored. -/
  archive : s'.archive = s.archive
  /-- What has no mark is unchanged. -/
  unmarked : ∀ o, s'.dirty.get? o = none →
    s.dirty.get? o = none ∧ s'.scripts.get? o = s.scripts.get? o

namespace Marks

@[refl] theorem refl (s : Session σ) : Marks s s := ⟨rfl, fun _ clean => ⟨clean, rfl⟩⟩

theorem trans (h : Marks s s') (h' : Marks s' s'') : Marks s s'' := by
  refine ⟨h'.archive.trans h.archive, fun o clean => ?_⟩
  obtain ⟨clean', same'⟩ := h'.unmarked o clean
  obtain ⟨clean, same⟩ := h.unmarked o clean'
  exact ⟨clean, same'.trans same⟩

theorem foldl {α : Type} {step : Session σ → α → Session σ} (each : ∀ s a, Marks s (step s a))
    (l : List α) (s : Session σ) : Marks s (l.foldl step s) := by
  induction l generalizing s with
  | nil => exact refl s
  | cons a l ih => exact (each s a).trans (ih _)

/-- A script that is put in the place of another and marked. -/
theorem put (script : Script) (archive : s'.archive = s.archive)
    (scripts : s'.scripts = s.scripts.insert a script) (dirty : s'.dirty = s.dirty.insert a ()) :
    Marks s s' := by
  refine ⟨archive, fun o clean => ?_⟩
  rw [dirty, Table.get?_insert] at clean
  rw [scripts, Table.get?_insert]
  split at clean
  · cases clean
  · next other => exact ⟨clean, if_neg other⟩

theorem withMachine (s : Session σ) (m : Machine) : Marks s { s with machine := m } :=
  ⟨rfl, fun _ clean => ⟨clean, rfl⟩⟩

theorem commit (s : Session σ) (owner : ActorId) (c : Context) : Marks s (s.commit owner c) := by
  unfold Session.commit
  split
  · exact put _ rfl rfl rfl
  · exact refl s

theorem conclude (s : Session σ) (owner : ActorId) (c : Context) (o : Outcome) (m : Machine) :
    Marks s (s.conclude owner c o m) :=
  (withMachine s _).trans (commit _ owner c)

theorem runHandler (s : Session σ) (h : Handler) (e : Event) : Marks s (s.runHandler h e) := by
  unfold Session.runHandler
  split
  · exact refl s
  split
  · exact refl s
  split
  · exact (withMachine s _).trans (commit _ _ _)
  · exact refl s

theorem runDelayed (s : Session σ) (d : Delayed) : Marks s (s.runDelayed d) := conclude s _ _ _ _

theorem pollLoop (s : Session σ) (t : LoopTask) : Marks s (s.pollLoop t) := by
  unfold Session.pollLoop
  dsimp only
  split
  · exact conclude s _ _ _ _
  · exact conclude s _ _ _ _

theorem runDelays (s : Session σ) : Marks s s.runDelays :=
  (withMachine s _).trans (foldl runDelayed _ _)

theorem pollLoops (s : Session σ) : Marks s s.pollLoops :=
  (withMachine s _).trans (foldl pollLoop _ _)

end Marks

theorem archive_dispatchNow [Archive σ] (s : Session σ) (e : Event) :
    (s.dispatchNow e).archive = s.archive := by
  unfold dispatchNow
  cases loading : s.ensureLoaded e.actor with
  | error _ => rfl
  | ok result =>
      have same : result.2.archive = s.archive := by
        rcases ensureLoaded_eq_ok_iff.mp loading with ⟨_, -, -, found⟩ | ⟨-, -, -, found⟩ |
          ⟨_, _, -, -, -, found⟩ <;> rw [found]
      exact (Marks.foldl (fun s h => Marks.runHandler s h e) _ _).archive.trans same

/-- A tick stores nothing. -/
theorem archive_tick [Archive σ] (s : Session σ) : s.tick.archive = s.archive := by
  have events (l : List Event) (s : Session σ) :
      (l.foldl dispatchNow s).archive = s.archive := by
    induction l generalizing s with
    | nil => rfl
    | cons e l ih => exact (ih _).trans (s.archive_dispatchNow e)
  refine Marks.archive ?_ |>.trans (events s.inbox { s with inbox := [] })
  exact (Marks.withMachine _ _).trans ((Marks.runDelays _).trans (Marks.pollLoops _))

/-! ## Saving many scripts -/

section Flush

variable [Archive σ]

/-- Saves the scripts of the owners in a list that is all those with a mark; how many were saved, or
the first failure. -/
def flushIn (s : Session σ) (order : List ActorId) : Except SessionError Nat × Session σ :=
  let f := order.foldl flushOne { session := { s with dirty := {} } }
  match f.failure with
  | none => (.ok f.saved, f.session)
  | some e => (.error (.archive e), f.session)

theorem flush_eq_flushIn (s : Session σ) : s.flush = s.flushIn s.dirty.keys := rfl

theorem flushIn_session (s : Session σ) (order : List ActorId) :
    (s.flushIn order).2 = (order.foldl flushOne { session := { s with dirty := {} } }).session := by
  unfold flushIn
  dsimp only
  split <;> rfl

/-- How the saves of the scripts of some owners go, one after another. -/
def saves (scripts : Table ActorId Script) :
    σ → List ActorId → List (ActorId × Except ArchiveError Unit)
  | _, [] => []
  | archive, owner :: rest =>
    match scripts.get? owner with
    | none => saves scripts archive rest
    | some script =>
      let (result, archive) := Archive.save archive script
      (owner, result) :: saves scripts archive rest

/-- The failure of a save, if it is one. -/
def failure? : ActorId × Except ArchiveError Unit → Option ArchiveError
  | (_, .error e) => some e
  | (_, .ok _) => none

variable (scripts : Table ActorId Script)

/-- Each loaded script is saved once. -/
theorem map_saves (archive : σ) (order : List ActorId) :
    (saves scripts archive order).map Prod.fst = order.filter scripts.contains := by
  induction order generalizing archive with
  | nil => rfl
  | cons owner rest ih =>
      rw [saves]
      cases loaded : scripts.get? owner with
      | none => simp [Table.contains, loaded, ih]
      | some script => simp [Table.contains, loaded, ih]

/-- What one owner's turn comes to: nothing, a save, or a failure. -/
theorem flushOne_cases (f : Flush σ) (owner : ActorId) :
    (f.session.scripts.get? owner = none ∧ flushOne f owner = f) ∨
    (∃ script archive, f.session.scripts.get? owner = some script ∧
      Archive.save f.session.archive script = (.ok (), archive) ∧
      flushOne f owner = { f with
        session := { f.session with archive := archive }
        saved := f.saved + 1 }) ∨
    (∃ script archive e, f.session.scripts.get? owner = some script ∧
      Archive.save f.session.archive script = (.error e, archive) ∧
      flushOne f owner = { f with
        session := { f.session with archive := archive, dirty := f.session.dirty.insert owner () }
        failure := f.failure.orElse fun _ => some e }) := by
  unfold flushOne
  cases loaded : f.session.scripts.get? owner with
  | none => exact .inl ⟨rfl, rfl⟩
  | some script =>
      dsimp only
      rcases tried : Archive.save f.session.archive script with ⟨e | ⟨⟩, archive⟩
      · exact .inr (.inr ⟨script, archive, e, rfl, tried, rfl⟩)
      · exact .inr (.inl ⟨script, archive, rfl, tried, rfl⟩)

/-- What the turns of some owners come to, documents apart. -/
structure Turns (order : List ActorId) (before after : Flush σ) : Prop where
  /-- No script changes. -/
  scripts : after.session.scripts = before.session.scripts
  /-- No handler changes. -/
  handlers : after.session.handlers = before.session.handlers
  /-- The saves that succeed are counted. -/
  saved : after.saved = before.saved +
    (saves before.session.scripts before.session.archive order).countP fun r => (failure? r).isNone
  /-- The first failure is noted. -/
  failure : after.failure = before.failure.or
    ((saves before.session.scripts before.session.archive order).findSome? failure?)
  /-- A failure leaves a mark. -/
  unmarked : ∀ o, after.session.dirty.get? o = none ↔ before.session.dirty.get? o = none ∧
    ∀ e, (o, .error e) ∉ saves before.session.scripts before.session.archive order

theorem turns (order : List ActorId) (f : Flush σ) : Turns order f (order.foldl flushOne f) := by
  induction order generalizing f with
  | nil => exact ⟨rfl, rfl, rfl, by simp [saves], fun o => by simp [saves]⟩
  | cons owner rest ih =>
      rw [List.foldl_cons]
      have later := ih (flushOne f owner)
      rcases flushOne_cases f owner with ⟨absent, same⟩ | ⟨script, archive, loaded, tried, same⟩ |
        ⟨script, archive, e, loaded, tried, same⟩
      · rw [same] at later ⊢
        have results : saves f.session.scripts f.session.archive (owner :: rest) =
            saves f.session.scripts f.session.archive rest := by simp only [saves, absent]
        exact ⟨later.scripts, later.handlers, results ▸ later.saved, results ▸ later.failure,
          results ▸ later.unmarked⟩
      · have results : saves f.session.scripts f.session.archive (owner :: rest) =
            (owner, .ok ()) :: saves f.session.scripts archive rest := by
          simp only [saves, loaded, tried]
        rw [same] at later ⊢
        refine ⟨later.scripts, later.handlers, ?_, ?_, fun o => ?_⟩
        · rw [later.saved, results]
          simp [failure?, Nat.add_assoc, Nat.add_comm 1]
        · rw [later.failure, results]
          rfl
        · rw [later.unmarked o, results]
          simp
      · have results : saves f.session.scripts f.session.archive (owner :: rest) =
            (owner, .error e) :: saves f.session.scripts archive rest := by
          simp only [saves, loaded, tried]
        rw [same] at later ⊢
        refine ⟨later.scripts, later.handlers, ?_, ?_, fun o => ?_⟩
        · rw [later.saved, results]
          simp [failure?]
        · rw [later.failure, results]
          cases f.failure <;> rfl
        · rw [later.unmarked o, results, Table.get?_insert]
          by_cases own : owner = o
          · subst own
            exact iff_of_false (by simp) fun h => h.2 e (List.mem_cons_self ..)
          · simp [own, Ne.symm own]

section Documents

variable [Filing σ]

/-- Saving other owners' scripts leaves an owner's document. -/
theorem document?_turns_of_notMem (order : List ActorId) {o : ActorId} (other : o ∉ order)
    (f : Flush σ) (agrees : f.session.Agrees) :
    Filing.document? (order.foldl flushOne f).session.archive o =
      Filing.document? f.session.archive o := by
  induction order generalizing f with
  | nil => rfl
  | cons owner rest ih =>
      rw [List.mem_cons, not_or] at other
      rw [List.foldl_cons]
      rcases flushOne_cases f owner with ⟨-, same⟩ | ⟨script, archive, loaded, tried, same⟩ |
        ⟨script, archive, e, loaded, tried, same⟩
      · rw [same]
        exact ih other.2 f agrees
      · have elsewhere : script.ownerId ≠ o := by
          rw [agrees owner script loaded]
          exact Ne.symm other.1
        rw [same]
        refine (ih other.2 _ ?_).trans ((Filing.document?_saved tried o).trans (if_neg elsewhere))
        exact agrees
      · rw [same]
        refine (ih other.2 _ ?_).trans (Filing.document?_failed tried o)
        exact agrees

/-- The script of an owner whose save does not fail is stored, whoever is saved before and after. -/
theorem document?_turns {order : List ActorId} (nodup : order.Nodup) {o : ActorId}
    (listed : o ∈ order) (f : Flush σ) (agrees : f.session.Agrees) {script : Script}
    (loaded : f.session.scripts.get? o = some script)
    (succeeded : ∀ e, (o, .error e) ∉ saves f.session.scripts f.session.archive order) :
    Filing.document? (order.foldl flushOne f).session.archive o = some script.toText := by
  induction order generalizing f with
  | nil => cases listed
  | cons owner rest ih =>
      obtain ⟨once, nodup⟩ := List.nodup_cons.mp nodup
      rw [List.foldl_cons]
      rcases List.mem_cons.mp listed with rfl | listed
      · rcases flushOne_cases f o with ⟨absent, -⟩ | ⟨script', archive, found, tried, same⟩ |
          ⟨script', archive, e, found, tried, same⟩
        · rw [absent] at loaded
          cases loaded
        · rw [loaded] at found
          cases found
          have here := (Filing.document?_saved tried o).trans (if_pos (agrees o script loaded))
          rw [same]
          refine (document?_turns_of_notMem rest once _ ?_).trans here
          exact agrees
        · refine absurd ?_ (succeeded e)
          simp only [saves, found, tried]
          exact List.mem_cons_self ..
      · rcases flushOne_cases f owner with ⟨absent, same⟩ | ⟨script', archive, found, tried, same⟩ |
          ⟨script', archive, e, found, tried, same⟩
        · simp only [saves, absent] at succeeded
          rw [same]
          exact ih nodup listed f agrees loaded succeeded
        · simp only [saves, found, tried] at succeeded
          rw [same]
          exact ih nodup listed _ agrees loaded fun e failed =>
            succeeded e (List.mem_cons_of_mem _ failed)
        · simp only [saves, found, tried] at succeeded
          rw [same]
          exact ih nodup listed _ agrees loaded fun e failed =>
            succeeded e (List.mem_cons_of_mem _ failed)

/-- What saving everything that is marked must come to, in whatever order it is done. -/
structure Flushed (s : Session σ) (order : List ActorId)
    (result : Except SessionError Nat × Session σ) : Prop where
  /-- Every loaded script with a mark is saved once. -/
  once : (saves s.scripts s.archive order).map Prod.fst = order.filter s.scripts.contains
  /-- The marks that are left are those of the owners whose save failed. -/
  marked : ∀ o, result.2.dirty.contains o = true ↔ ∃ e, (o, .error e) ∈ saves s.scripts s.archive order
  /-- Every other script that had a mark is stored. -/
  stored : ∀ o script, s.dirty.contains o = true → s.scripts.get? o = some script →
    (∀ e, (o, .error e) ∉ saves s.scripts s.archive order) →
      Filing.document? result.2.archive o = some script.toText
  /-- Without a failure the scripts that were saved are counted; otherwise the first one is told. -/
  answer : result.1 = match (saves s.scripts s.archive order).findSome? failure? with
    | none => .ok (order.filter s.scripts.contains).length
    | some e => .error (.archive e)

/-- What becomes of the documents in the turns of some owners. -/
theorem inPlace_turns (order : List ActorId) (f : Flush σ)
    (inPlace : Filing.InPlace f.session.archive) :
    Filing.InPlace (order.foldl flushOne f).session.archive := by
  induction order generalizing f with
  | nil => exact inPlace
  | cons owner rest ih =>
      rw [List.foldl_cons]
      apply ih
      rcases flushOne_cases f owner with ⟨-, same⟩ | ⟨script, archive, -, tried, same⟩ |
        ⟨script, archive, e, -, tried, same⟩
      · rw [same]
        exact inPlace
      · have saved := inPlace.save script
        rw [tried] at saved
        rw [same]
        exact saved
      · have saved := inPlace.save script
        rw [tried] at saved
        rw [same]
        exact saved

theorem flushed (agrees : s.Agrees) {order : List ActorId} (all : order.Perm s.dirty.keys) :
    Flushed s order (s.flushIn order) := by
  have done := turns order { session := { s with dirty := {} } }
  have once := map_saves s.scripts s.archive order
  refine ⟨once, fun o => ?_, fun o script marked loaded succeeded => ?_, ?_⟩
  · have unmarked := (done.unmarked o).trans (and_iff_right rfl)
    rw [flushIn_session, ← Bool.not_eq_false, Table.contains_eq_false_iff, unmarked]
    simp
  · rw [flushIn_session]
    have listed : o ∈ order := all.mem_iff.mpr (Table.mem_keys_iff.mpr marked)
    have nodup : order.Nodup := all.nodup_iff.mpr (Table.nodup_keys s.dirty.ascending)
    exact document?_turns nodup listed { session := { s with dirty := {} } } agrees loaded succeeded
  · have saved := done.saved
    have failure := done.failure
    unfold flushIn
    dsimp only at saved failure ⊢
    rw [failure, Option.none_or]
    cases first : (saves s.scripts s.archive order).findSome? failure? with
    | some e => rfl
    | none =>
        -- without a failure every save is counted
        have all : ∀ r ∈ saves s.scripts s.archive order, (failure? r).isNone = true := by
          intro r hr
          rw [List.findSome?_eq_none_iff.mp first r hr]
          rfl
        rw [saved, List.countP_eq_length.mpr all, ← once, List.length_map, Nat.zero_add]

/-! ## Clean scripts are stored -/

variable {o : ActorId}

theorem Clean.of_marks (h : Marks s s') (clean : Clean o s) : Clean o s' := by
  intro script loaded unmarked
  obtain ⟨before, same⟩ := h.unmarked o unmarked
  rw [h.archive]
  exact clean script (same ▸ loaded) before

/-- A script that is loaded is read from its document. -/
theorem Clean.ensureLoaded {found : Bool} (loading : s.ensureLoaded a = .ok (found, s'))
    (clean : Clean o s) : Clean o s' := by
  rcases ensureLoaded_eq_ok_iff.mp loading with ⟨-, -, -, rfl⟩ | ⟨-, -, -, rfl⟩ |
    ⟨read, supply, -, fetched, -, rfl⟩
  · exact clean
  · exact clean
  · intro script loaded unmarked
    dsimp only at loaded unmarked ⊢
    by_cases own : a = o
    · subst own
      rw [Table.get?_insert_self] at loaded
      cases loaded
      obtain ⟨text, kept, decoded⟩ := Filing.document?_loaded fetched
      have same : read.rebuildFunctions = read := Script.rebuildFunctions_of_ofText decoded
      exact ⟨text, kept, .inr ⟨s.supply, supply, by rw [same, decoded]⟩⟩
    · rw [Table.get?_insert_of_ne _ _ own] at loaded
      exact clean script loaded unmarked

theorem Clean.dispatchNow (clean : Clean o s) (e : Event) : Clean o (s.dispatchNow e) := by
  unfold Session.dispatchNow
  cases loading : s.ensureLoaded e.actor with
  | error _ => exact clean
  | ok result =>
      exact (clean.ensureLoaded loading).of_marks (Marks.foldl (fun s h => Marks.runHandler s h e) _ _)

theorem Clean.events (clean : Clean o s) (l : List Event) :
    Clean o (l.foldl Session.dispatchNow s) := by
  induction l generalizing s with
  | nil => exact clean
  | cons e l ih => exact ih (clean.dispatchNow e)

theorem Clean.tick (clean : Clean o s) : Clean o s.tick := by
  have emptied : Clean o { s with inbox := [] } := clean
  refine (emptied.events s.inbox).of_marks ?_
  exact (Marks.withMachine _ _).trans ((Marks.runDelays _).trans (Marks.pollLoops _))

theorem Clean.flushIn (agrees : s.Agrees) (clean : Clean o s) {order : List ActorId}
    (all : order.Perm s.dirty.keys) : Clean o (s.flushIn order).2 := by
  intro script loaded unmarked
  have done := flushed agrees all
  rw [flushIn_session, (turns order _).scripts] at loaded
  have succeeded : ∀ e, (o, .error e) ∉ saves s.scripts s.archive order := by
    intro e failed
    have marked := (done.marked o).mpr ⟨e, failed⟩
    rw [Table.contains_eq_false_iff.mpr unmarked] at marked
    cases marked
  cases before : s.dirty.contains o with
  | true =>
      exact ⟨script.toText, done.stored o script before loaded succeeded, .inl rfl⟩
  | false =>
      -- without a mark the script is not saved, and no other script is filed under its owner
      have unlisted : o ∉ order := by
        rw [all.mem_iff, Table.mem_keys_iff, before]
        exact Bool.false_ne_true
      obtain ⟨text, kept, reads⟩ := clean script loaded (Table.contains_eq_false_iff.mp before)
      have same := document?_turns_of_notMem order unlisted { session := { s with dirty := {} } } agrees
      rw [← flushIn_session] at same
      exact ⟨text, same.trans kept, reads⟩

/-- Whose script is saved when an actor departs is the actor itself. -/
theorem document?_depart (agrees : s.Agrees) (other : a ≠ o) :
    Filing.document? (s.depart a).2.archive o = Filing.document? s.archive o := by
  rw [depart_eq]
  cases loaded : s.scripts.get? a with
  | none => rfl
  | some script =>
      have elsewhere : script.ownerId ≠ o := by rwa [agrees a script loaded]
      rcases tried : Archive.save s.archive script with ⟨e | ⟨⟩, archive⟩
      · simpa [tried] using Filing.document?_failed tried o
      · simpa [tried] using (Filing.document?_saved tried o).trans (if_neg elsewhere)

theorem Clean.depart (agrees : s.Agrees) (clean : Clean o s) : Clean o (s.depart a).2 := by
  intro script loaded unmarked
  have other : a ≠ o := by
    rintro rfl
    simp [depart_eq, Table.get?_erase] at loaded
  have kept := document?_depart agrees other
  rw [depart_eq] at loaded unmarked
  simp only [Table.get?_erase, if_neg other] at loaded unmarked
  obtain ⟨text, stored, reads⟩ := clean script loaded unmarked
  exact ⟨text, kept.trans stored, reads⟩

end Documents

end Flush

/-! ## Sessions in use -/

section Use

variable [Archive σ] [Filing σ]

/-- What a host can do to a session, and what can happen around it. -/
inductive Uses : Session σ → Session σ → Prop where
  /-- A script is installed. -/
  | install {s s' : Session σ} {script : Script} (done : s.install script = .ok s') : Uses s s'
  /-- A script is edited in anything but its owner. -/
  | edit {s s' : Session σ} {a : ActorId} {change : Script → Script}
      (keeps : ∀ script, (change script).ownerId = script.ownerId)
      (done : s.edit a change = .ok s') : Uses s s'
  /-- A line is turned on or off. -/
  | setLineEnabled {s s' : Session σ} {a : ActorId} {line : Nat} {enabled : Bool}
      (done : s.setLineEnabled a line enabled = .ok s') : Uses s s'
  /-- A script is looked for. -/
  | load {s s' : Session σ} {a : ActorId} {found : Bool}
      (done : s.ensureLoaded a = .ok (found, s')) : Uses s s'
  /-- An event happens. -/
  | dispatch (s : Session σ) (e : Event) : Uses s (s.dispatch e)
  /-- An event is put off. -/
  | queue (s : Session σ) (e : Event) : Uses s (s.queue e)
  /-- The next tick comes. -/
  | tick (s : Session σ) : Uses s s.tick
  /-- A loop is stopped. -/
  | stopLoop (s : Session σ) (a : ActorId) : Uses s (s.stopLoop a).2
  /-- Everything that is marked is saved, in any order. -/
  | flush (s : Session σ) {order : List ActorId} (all : order.Perm s.dirty.keys) :
      Uses s (s.flushIn order).2
  /-- An actor departs. -/
  | depart (s : Session σ) (a : ActorId) : Uses s (s.depart a).2
  /-- The world, the archive or the time change, but no document does. -/
  | around (s : Session σ) (m : Machine) (archive : σ) (supply : Uuid.Supply) (now : Timestamp)
      (same : ∀ o, Filing.document? archive o = Filing.document? s.archive o) :
      Uses s { s with machine := m, archive := archive, supply := supply, now := now }

theorem Uses.clean {o : ActorId} (h : Uses s s') (agrees : s.Agrees) (clean : Clean o s) :
    Clean o s' := by
  cases h with
  | install done =>
      unfold Session.install at done
      split at done
      · cases done
      · cases done
        exact clean.of_marks (Marks.put (s := s) _ rfl rfl rfl)
  | edit _ done =>
      obtain ⟨found, s₁, loading, rfl⟩ := edit_eq_ok_iff.mp done
      exact (clean.ensureLoaded loading).of_marks (Marks.put (s := s₁) _ rfl rfl rfl)
  | setLineEnabled done =>
      unfold Session.setLineEnabled at done
      split at done
      · cases done
      split at done
      · cases done
        exact clean.of_marks (Marks.put (s := s) _ rfl rfl rfl)
      · cases done
  | load done => exact clean.ensureLoaded done
  | dispatch e =>
      unfold Session.dispatch
      split
      · exact clean.dispatchNow e
      · exact clean
  | queue => exact clean
  | tick => exact clean.tick
  | stopLoop => exact clean.of_marks (.withMachine s _)
  | flush all => exact clean.flushIn agrees all
  | depart => exact clean.depart agrees
  | around m archive supply now same =>
      intro script loaded unmarked
      obtain ⟨text, kept, reads⟩ := clean script loaded unmarked
      exact ⟨text, (same o).trans kept, reads⟩

/-- Scripts and documents keep to their owners. -/
structure Orderly (s : Session σ) : Prop where
  /-- The tables of the session agree with the scripts. -/
  indexed : s.Indexed
  /-- The documents of the archive are under the owners that they name. -/
  inPlace : Filing.InPlace s.archive

theorem Orderly.agrees (h : s.Orderly) : s.Agrees := h.indexed.owners

theorem Uses.orderly (h : Uses s s') (before : s.Orderly) : s'.Orderly := by
  obtain ⟨indexed, inPlace⟩ := before
  have honest := inPlace.honest
  cases h with
  | install done =>
      refine ⟨indexed.install done, ?_⟩
      unfold Session.install at done
      split at done
      · cases done
      · cases done
        exact inPlace
  | edit keeps done =>
      refine ⟨indexed.edit honest keeps done, ?_⟩
      obtain ⟨found, s₁, loading, rfl⟩ := edit_eq_ok_iff.mp done
      have same : s₁.archive = s.archive := (indexed.ensureLoaded honest loading).2
      exact same.symm ▸ inPlace
  | setLineEnabled done =>
      refine ⟨indexed.setLineEnabled done, ?_⟩
      unfold Session.setLineEnabled at done
      split at done
      · cases done
      split at done
      · cases done
        exact inPlace
      · cases done
  | load done =>
      obtain ⟨indexed, same⟩ := indexed.ensureLoaded honest done
      exact ⟨indexed, same ▸ inPlace⟩
  | dispatch e =>
      refine ⟨indexed.dispatch honest e, ?_⟩
      unfold Session.dispatch
      split
      · exact (indexed.dispatchNow honest e).2 ▸ inPlace
      · exact inPlace
  | queue e => exact ⟨indexed.of_eq rfl rfl, inPlace⟩
  | tick => exact ⟨indexed.tick honest, s.archive_tick ▸ inPlace⟩
  | stopLoop => exact ⟨indexed.of_eq rfl rfl, inPlace⟩
  | flush =>
      rw [flushIn_session]
      exact ⟨indexed.of_eq (turns _ _).handlers (turns _ _).scripts, inPlace_turns _ _ inPlace⟩
  | depart a =>
      refine ⟨indexed.depart a, ?_⟩
      rw [depart_eq]
      cases s.scripts.get? a with
      | none => exact inPlace
      | some script => exact inPlace.save script
  | around m archive supply now same => exact ⟨indexed.of_eq rfl rfl, inPlace.of_documents same⟩

/-- The states that a host can bring about from a new session, over an archive in which every document
is in its place at first. -/
inductive Reached : Session σ → Prop where
  | start (limits : Limits) (world : World) (effects : Effects) {archive : σ}
      (inPlace : Filing.InPlace archive) : Reached (start limits world effects archive)
  | step {s s' : Session σ} (before : Reached s) (use : Uses s s') : Reached s'

theorem Reached.orderly (h : Reached s) : s.Orderly := by
  induction h with
  | start _ _ _ inPlace => exact ⟨.start .., inPlace⟩
  | step _ use ih => exact use.orderly ih

theorem Reached.clean (h : Reached s) (o : ActorId) : Clean o s := by
  induction h with
  | start => exact fun _ loaded => nomatch loaded
  | step before use ih => exact use.clean before.orderly.agrees ih

/-- **Clean means stored.** In every state that a host can bring about, the document of a loaded
script without a mark is the script's.  Saving what is marked, in whatever order and whichever saves
fail, leaves the marks of the failures and stores the rest. -/
theorem clean_stored (reached : Reached s) :
    (∀ o script, s.scripts.get? o = some script → s.dirty.contains o = false →
      Stored s.archive o script) ∧
    s.flush = s.flushIn s.dirty.keys ∧
    ∀ order : List ActorId, order.Perm s.dirty.keys → Flushed s order (s.flushIn order) := by
  refine ⟨fun o script loaded unmarked => ?_, rfl, fun order all => ?_⟩
  · exact reached.clean o script loaded (Table.contains_eq_false_iff.mp unmarked)
  · exact flushed reached.orderly.agrees all

end Use

/-- A script without lines. -/
def plain : Script := { ownerId := ⟨1⟩, ownerName := "ada", lastModified := ⟨0, 0⟩ }

/-- A session in which that script has just been installed, over an archive that can be taken
down. -/
def keeping (down : Bool) : Session (Outage MemoryArchive) :=
  { start {} {} .refusing { archive := {}, down := down } with
    handlers := ({} : Handlers).register plain
    scripts := ({} : Table ActorId Script).insert ⟨1⟩ plain
    dirty := ({} : Table ActorId Unit).insert ⟨1⟩ () }

theorem reached_keeping (down : Bool) : Reached (keeping down) := by
  have empty : Filing.InPlace ({ archive := {}, down := down } : Outage MemoryArchive) := by
    intro o text kept
    cases kept
  have installed : (start {} {} .refusing { archive := ({} : MemoryArchive), down := down }).install
      plain = .ok (keeping down) := rfl
  exact .step (.start _ _ _ empty) (.install installed)

/-- Once it has been saved, the script is stored. -/
theorem stored_plain : Stored (keeping false).flush.2.archive ⟨1⟩ plain := by
  have saved : Reached (keeping false).flush.2 :=
    .step (reached_keeping false) (.flush _ (List.Perm.refl _))
  exact (clean_stored saved).1 ⟨1⟩ plain rfl rfl

/-! ### Scripts that go astray -/

/-- A script is edited and saved without an error.  Afterwards it is loaded and has no mark, but it is
not stored. -/
def Unstored [Archive σ] [Filing σ] (archive : σ) (a : ActorId) (change : Script → Script) : Prop :=
  ∃ s s' script, (start {} {} .refusing archive).edit a change = .ok s ∧ s.flush = (.ok 1, s') ∧
    s'.scripts.get? a = some script ∧ s'.dirty.contains a = false ∧ ¬ Stored s'.archive a script

/-- Saving the only script with a mark. -/
theorem flush_of_single [Archive σ] {script : Script} {archive : σ} (marked : s.dirty.keys = [a])
    (loaded : s.scripts.get? a = some script)
    (saved : Archive.save s.archive script = (.ok (), archive)) :
    s.flush = (.ok 1, { s with dirty := {}, archive := archive }) := by
  simp only [flush, marked, List.foldl_cons, List.foldl_nil, flushOne, loaded, saved]

/-- A script without lines that names another owner, on or off. -/
def stray (enabled : Bool) : Script := { plain with ownerId := ⟨2⟩, enabled := enabled }

theorem ofText_stray_iff {enabled : Bool} {supply : Uuid.Supply} {r : Script × Uuid.Supply} :
    Script.ofText (stray enabled).toText supply = .ok r ↔ r = (stray enabled, supply) := by
  have proper : Timestamp.IsProper ⟨0, 0⟩ := ⟨by decide, .inl (by decide)⟩
  have short : (stray enabled).lines.length ≤ Json.maxWord + 1 := Nat.zero_le _
  rw [Script.ofText_toText_eq_ok_iff (s := stray enabled) List.nodup_nil proper short]
  constructor
  · rintro ⟨-, -, g, read, rfl⟩
    cases Script.readTable?_empty.symm.trans read
    rfl
  · rintro rfl
    refine ⟨?_, ?_, {}, Script.readTable?_empty, rfl⟩
    · intro l none
      cases none
    · rw [Block.values_iff_contents]
      intro v none
      cases none

/-- A folder with that script in the file of an actor who is not its owner. -/
def astray : FolderArchive := ({} : FolderArchive).put (FolderArchive.fileName ⟨1⟩) (stray true).toText

theorem load_astray (supply : Uuid.Supply) :
    Archive.load astray ⟨1⟩ supply = .ok (some (stray true, supply)) := by
  have file : astray.entries.get? (FolderArchive.fileName ⟨1⟩) = some (.file (stray true).toText) :=
    Table.get?_insert_self ..
  simp only [Archive.load, file, Archive.read, ofText_stray_iff.mpr]

/-- The script goes to its owner's file. -/
theorem save_astray : ∃ archive, Archive.save astray (stray false) = (.ok (), archive) := by
  have other : FolderArchive.fileName ⟨1⟩ ≠ FolderArchive.fileName ⟨2⟩ := fun same =>
    absurd (FolderArchive.fileName_injective same) (by decide)
  have temporary : astray.entries.get? (FolderArchive.temporaryName ⟨2⟩) = none :=
    Table.get?_insert_of_ne _ _ (FolderArchive.temporaryName_ne_fileName ⟨2⟩ ⟨1⟩).symm
  have file : astray.entries.get? (FolderArchive.fileName ⟨2⟩) = none :=
    Table.get?_insert_of_ne _ _ other
  simp only [Archive.save, FolderArchive.write, stray, temporary, file]
  exact ⟨_, rfl⟩

/-- A session over that folder in which the script is loaded for the actor. -/
def misled (enabled : Bool) (dirty : Table ActorId Unit) : Session FolderArchive :=
  { start {} {} .refusing astray with
    handlers := ({} : Handlers).register (stray enabled)
    scripts := ({} : Table ActorId Script).insert ⟨1⟩ (stray enabled)
    dirty := dirty }

theorem edit_astray :
    (start {} {} .refusing astray).edit ⟨1⟩ (fun script => { script with enabled := false }) =
      .ok (misled false (({} : Table ActorId Unit).insert ⟨1⟩ ())) := by
  have loading : (start {} {} .refusing astray).ensureLoaded ⟨1⟩ = .ok (true, misled true {}) :=
    ensureLoaded_eq_ok_iff.mpr (.inr (.inr ⟨stray true, _, rfl, load_astray _, rfl, rfl⟩))
  exact edit_eq_ok_iff.mpr ⟨true, misled true {}, loading, rfl⟩

/-- A document under another owner is not replaced when its script is saved. -/
theorem unstored_astray : Unstored astray ⟨1⟩ fun script => { script with enabled := false } := by
  obtain ⟨archive, saved⟩ := save_astray
  refine ⟨_, _, stray false, edit_astray, flush_of_single rfl rfl saved, rfl, rfl, ?_⟩
  rintro ⟨text, kept, same⟩
  have before : Filing.document? archive ⟨1⟩ = some (stray true).toText :=
    (Filing.document?_saved saved ⟨1⟩).trans rfl
  cases before.symm.trans kept
  -- what is read from the old document is on, the script is off
  rcases same with same | ⟨supply, supply', read⟩
  · have read : Script.ofText (stray false).toText ⟨0⟩ = .ok (stray false, ⟨0⟩) :=
      ofText_stray_iff.mpr rfl
    rw [← same] at read
    cases ofText_stray_iff.mp read
  · cases ofText_stray_iff.mp read

/-- A script that is edited to name another owner leaves no document under the old one. -/
theorem unstored_renamed :
    Unstored ({} : MemoryArchive) ⟨1⟩ fun script => { script with ownerId := ⟨2⟩ } := by
  refine ⟨_, _, _, rfl, rfl, rfl, rfl, ?_⟩
  rintro ⟨text, kept, -⟩
  cases kept

/-- **A mark can be taken away without storing the script** where the document or the edit names
another owner. -/
theorem unstored_strays :
    Unstored astray ⟨1⟩ (fun script => { script with enabled := false }) ∧
      Unstored ({} : MemoryArchive) ⟨1⟩ (fun script => { script with ownerId := ⟨2⟩ }) :=
  ⟨unstored_astray, unstored_renamed⟩

/-! ## A departure that cannot save -/

section Loss

variable [Archive σ]

/-- Departing fails exactly if a script is loaded and cannot be saved. -/
theorem depart_eq_error_iff {e : SessionError} : (s.depart a).1 = .error e ↔
    ∃ script cause, s.scripts.get? a = some script ∧
      (Archive.save s.archive script).1 = .error cause ∧ e = .archive cause := by
  unfold depart
  dsimp only
  cases loaded : s.scripts.get? a with
  | none => simp
  | some script =>
      dsimp only
      cases result : (Archive.save s.archive script).1 with
      | ok _ => simp [result]
      | error cause => simp [result, eq_comm]

/-- Nothing is left of an actor's script in a session, and nothing has been stored. -/
structure Lost [Filing σ] (a : ActorId) (s s' : Session σ) : Prop where
  /-- The script is not loaded. -/
  script : s'.scripts.get? a = none
  /-- It has no mark. -/
  mark : s'.dirty.get? a = none
  /-- Every document is what it was. -/
  documents : ∀ o, Filing.document? s'.archive o = Filing.document? s.archive o
  /-- Another departure has nothing to save. -/
  again : (s'.depart a).1 = .ok () ∧ (s'.depart a).2.archive = s'.archive
  /-- No order of saving comes to the actor. -/
  unsaved : ∀ order, a ∉ (saves s'.scripts s'.archive order).map Prod.fst

/-- **A departure whose save fails loses the script.** It is neither loaded nor marked afterwards, and
no later flush or departure saves it. -/
theorem lost_of_depart_error [Filing σ] {e : SessionError} (failed : (s.depart a).1 = .error e) :
    Lost a s (s.depart a).2 := by
  obtain ⟨script, cause, loaded, refused, -⟩ := depart_eq_error_iff.mp failed
  have gone : (s.depart a).2.scripts.get? a = none := by
    rw [depart_eq]
    exact (Table.get?_erase ..).trans (if_pos rfl)
  refine ⟨gone, ?_, fun o => ?_, ⟨?_, ?_⟩, fun order => ?_⟩
  · rw [depart_eq]
    exact (Table.get?_erase ..).trans (if_pos rfl)
  · rw [depart_eq, loaded]
    exact Filing.document?_failed (Prod.ext refused rfl) o
  · unfold depart at gone ⊢
    dsimp only at gone ⊢
    rw [gone]
  · rw [depart_eq (s.depart a).2, gone]
    rfl
  · rw [map_saves, List.mem_filter, Table.contains_eq_false_iff.mpr gone]
    exact fun listed => Bool.false_ne_true listed.2

end Loss

/-- The script is lost when its owner departs while the archive is down. -/
theorem lost_plain : Lost ⟨1⟩ (keeping true) ((keeping true).depart ⟨1⟩).2 :=
  lost_of_depart_error (e := .archive .io) rfl

end Session

end Blockwork
