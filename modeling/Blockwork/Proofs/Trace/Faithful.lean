import Blockwork.Proofs.Machine.Closed
import Blockwork.Proofs.Table
import Blockwork.Proofs.Trace.Notes

/-!
# What the notes mean

The notes of a run change nothing about it, and they account for every variable: a variable that is
not noted as changed has the same place in the overlay as before, and a block that looks at a variable
before anything touched it finds no value of its own in the overlay, so it sees the snapshot.

`TracesFrom` states the three facts together, for one run from one state, and is closed under
sequencing, so that one induction over the interpreter gives them all.

## What is load-bearing

A call runs in a scope of its own, and the caller's scope comes back afterwards.  The overlay after a
call is therefore compared not with the overlay the last step started from, which is the callee's, but
with the caller's.  This is why `TracesFrom` has the overlay to compare with as a parameter.
-/

namespace Blockwork

/-! ## Runs that leave the variables -/

/-- A run that leaves the overlay of variables as it is. -/
def Run.Silent {α : Type} (r : Run α) : Prop := ∀ st, (r.run st).2.scope.locals = st.scope.locals

namespace Run.Silent

/-- What changes no variable leaves the overlay. -/
theorem reading : Reading Silent where
  pure _ _ := rfl
  bind first rest st := (rest _ _).trans (first st)
  scene _ _ := rfl
  roll _ _ := rfl
  useEffects _ _ := rfl
  changeWorld _ _ := rfl

theorem contradict : Silent (Run.changeMachine Machine.contradict) := fun _ => rfl

theorem isRaised (signal : Signal) : Silent (Run.isRaised signal) := fun _ => rfl

theorem record (f : Frame) (b : Block) (o : Outcome) : Silent (Run.record f b o) := by
  intro st
  show (st.scope.record f.logLimit b o).locals = st.scope.locals
  unfold Scope.record
  split <;> rfl

theorem stopLoop (f : Frame) : Silent (Run.stopLoop f) := fun _ => rfl

theorem spread (f : Frame) (interval : UInt32) (body : List Block) (c : Cursor) :
    Silent (Loop.spread f interval body c) := by
  intro st
  unfold StateT.run Loop.spread
  dsimp only
  cases st.machine.takeSlot f.actor with
  | error e => rfl
  | ok result => rfl

theorem postpone (f : Frame) (wait : Float) (body : List Block) :
    Silent (Interpreter.postpone f wait body) := fun _ => rfl

end Run.Silent

/-! ## Notes that agree with a state -/

/-- The variables written in a run; one that was cleared has no value. -/
abbrev Overlay := Table String (Option Datum)

/-- Notes that agree with a snapshot and an overlay. -/
structure Follows (g : Table String Datum) (notes : List Note) (locals : Overlay) : Prop where
  /-- Every look had the snapshot under it, and an overlay without the variables not yet touched. -/
  reads : ∀ before c after, notes = before ++ .read c :: after →
    c.frame.globals = g ∧
      ∀ n, isTransient n = false → n ∉ Note.touched before → c.scope.locals.get? n = none
  /-- The overlay is without the variables not yet touched. -/
  clean : ∀ n, isTransient n = false → n ∉ Note.touched notes → locals.get? n = none

namespace Follows

variable {g : Table String Datum} {notes : List Note} {locals locals' : Overlay}

theorem touched_append (before after : List Note) :
    Note.touched (before ++ after) = Note.touched before ++ Note.touched after :=
  List.filterMap_append

/-- A block looks at variables. -/
theorem read (h : Follows g notes locals) {c : Context} (under : c.frame.globals = g)
    (above : c.scope.locals = locals) : Follows g (notes ++ [.read c]) locals where
  reads before c' after split := by
    rcases List.eq_nil_or_concat after with rfl | ⟨middle, last, rfl⟩
    -- the look is the new one
    · obtain ⟨rfl, same⟩ := List.append_inj' split rfl
      cases same
      rw [above]
      exact ⟨under, h.clean⟩
    -- the look is an earlier one
    · rw [List.concat_eq_append, ← List.cons_append, ← List.append_assoc] at split
      obtain ⟨earlier, -⟩ := List.append_inj' split rfl
      exact h.reads before c' middle earlier
  clean n lasting fresh := by
    rw [touched_append, List.mem_append, not_or] at fresh
    exact h.clean n lasting fresh.1

/-- Variables are written, each with a note. -/
theorem write (h : Follows g notes locals) {more : List Note} (unread : ∀ c, Note.read c ∉ more)
    (frame : ∀ n, n ∉ Note.touched more → locals'.get? n = locals.get? n) :
    Follows g (notes ++ more) locals' where
  reads before c after split := by
    rcases List.append_eq_append_iff.mp split with ⟨more', rfl, last⟩ | ⟨more', earlier, last⟩
    · exact absurd (last ▸ List.mem_append_right _ (List.mem_cons_self ..)) (unread c)
    · cases more' with
      | nil =>
          rw [List.nil_append] at last
          exact absurd (last ▸ List.mem_cons_self ..) (unread c)
      | cons note more' =>
          obtain ⟨rfl, -⟩ := List.cons.inj last
          exact h.reads before c more' earlier
  clean n lasting fresh := by
    rw [touched_append, List.mem_append, not_or] at fresh
    rw [frame n fresh.2]
    exact h.clean n lasting fresh.1

/-- An overlay from before some notes, put back after them. -/
theorem restore {more : List Note} (h : Follows g (notes ++ more) locals')
    (before : Follows g notes locals) : Follows g (notes ++ more) locals where
  reads := h.reads
  clean n lasting fresh := by
    rw [touched_append, List.mem_append, not_or] at fresh
    exact before.clean n lasting fresh.1

end Follows

/-! ## Runs with notes and the runs they stand for -/

/-- The result of a run with notes. -/
def Traced.after {α : Type} (t : Traced α) (notes : List Note) (st : RunState) :
    (α × List Note) × RunState :=
  (StateT.run t notes).run st

/-- A run with notes stands for a run: the result is the same, the notes are added to those from
before, the variables not noted as changed are as in a given overlay, and the notes agree with the
snapshot if they did before with the given overlay. -/
structure TracesFrom {α : Type} (g : Table String Datum) (base : Overlay) (t : Traced α) (r : Run α)
    (notes : List Note) (st : RunState) : Prop where
  /-- The result is the same. -/
  same : r.run st = ((t.after notes st).1.1, (t.after notes st).2)
  /-- Notes are added, and what is not noted as changed has not changed. -/
  grows : ∃ more, (t.after notes st).1.2 = notes ++ more ∧
    ∀ n, n ∉ Note.changed more → (t.after notes st).2.scope.locals.get? n = base.get? n
  /-- The notes agree with the snapshot. -/
  follows : Follows g notes base →
    Follows g (t.after notes st).1.2 (t.after notes st).2.scope.locals

/-- A run with notes stands for a run, from any state. -/
def Traces {α : Type} (g : Table String Datum) (t : Traced α) (r : Run α) : Prop :=
  ∀ notes st, TracesFrom g st.scope.locals t r notes st

variable {α β : Type} {g : Table String Datum} {base : Overlay}

/-- Sequencing. -/
theorem TracesFrom.bind {t : Traced α} {r : Run α} {k : α → Traced β} {k' : α → Run β}
    {notes : List Note} {st : RunState} (first : TracesFrom g base t r notes st)
    (next : ∀ a, Traces g (k a) (k' a)) : TracesFrom g base (t >>= k) (r >>= k') notes st := by
  obtain ⟨more, added, frame⟩ := first.grows
  -- the second run starts from what the first has left
  have second := next (t.after notes st).1.1 (t.after notes st).1.2 (t.after notes st).2
  obtain ⟨more', added', frame'⟩ := second.grows
  refine ⟨?_, ⟨more ++ more', ?_, fun n hn => ?_⟩,
    fun before => second.follows (first.follows before)⟩
  · show (k' (r.run st).1).run (r.run st).2 = _
    rw [first.same]
    exact second.same
  · rw [← List.append_assoc, ← added]
    exact added'
  · rw [Note.changed, List.filterMap_append, List.mem_append, not_or] at hn
    exact (frame' n hn.2).trans (frame n hn.1)

namespace Traces

theorem bind {t : Traced α} {r : Run α} {k : α → Traced β} {k' : α → Run β} (first : Traces g t r)
    (next : ∀ a, Traces g (k a) (k' a)) : Traces g (t >>= k) (r >>= k') :=
  fun notes st => (first notes st).bind next

/-- A run that leaves the overlay stands for itself. -/
theorem quiet {r : Run α} (silent : r.Silent) : Traces g (Traced.quiet r) r := by
  intro notes st
  have after : (Traced.quiet r).after notes st = (((r.run st).1, notes), (r.run st).2) := rfl
  refine ⟨?_, ⟨[], ?_, fun n _ => ?_⟩, fun before => ?_⟩
  · rw [after]
    rfl
  · rw [after, List.append_nil]
  · rw [after, silent st]
  · rw [after, silent st]
    exact before

theorem pure (a : α) : Traces g (Pure.pure a) (Pure.pure a : Run α) :=
  quiet (r := Pure.pure a) fun _ => rfl

/-- Looking at variables; what follows may count on the state that was seen. -/
theorem scene_bind {f : Frame} (under : f.globals = g) {k : Scene → Traced α} {k' : Scene → Run α}
    (next : ∀ notes st, TracesFrom g st.scope.locals (k ⟨⟨f, st.scope⟩, st.machine.world⟩)
      (k' ⟨⟨f, st.scope⟩, st.machine.world⟩) notes st) :
    Traces g (Traced.scene f >>= k) (Run.scene f >>= k') := by
  intro notes st
  have after := next (notes ++ [.read ⟨f, st.scope⟩]) st
  obtain ⟨more, added, frame⟩ := after.grows
  refine ⟨after.same, ⟨.read ⟨f, st.scope⟩ :: more, ?_, frame⟩, fun before => ?_⟩
  · rw [List.append_cons]
    exact added
  · exact after.follows (before.read under rfl)

/-- Looking at variables, where what follows does not depend on the state. -/
theorem scene {f : Frame} (under : f.globals = g) {k : Scene → Traced α} {k' : Scene → Run α}
    (next : ∀ s, Traces g (k s) (k' s)) : Traces g (Traced.scene f >>= k) (Run.scene f >>= k') :=
  scene_bind under fun notes st => next _ notes st

theorem looking {f : Frame} (under : f.globals = g) {r : Run α} (silent : r.Silent) :
    Traces g (Traced.looking f r) r := by
  intro notes st
  have after := quiet (g := g) silent (notes ++ [.read ⟨f, st.scope⟩]) st
  obtain ⟨more, added, frame⟩ := after.grows
  refine ⟨after.same, ⟨.read ⟨f, st.scope⟩ :: more, ?_, frame⟩, fun before => ?_⟩
  · rw [List.append_cons]
    exact added
  · exact after.follows (before.read under rfl)

/-- A variable is written or cleared, with a note of it. -/
theorem write {note : Note} {name : String} {own : Option Datum} {r : Run Unit}
    (noted : note.changed? = some name)
    (wrote : ∀ st, (r.run st).2.scope.locals = st.scope.locals.insert name own) :
    Traces g (Traced.quiet r >>= fun _ => Traced.jot [note]) r := by
  intro notes st
  have touched : note.touched? = some name := by
    cases note <;> simp_all [Note.changed?, Note.touched?]
  have unread : ∀ c, Note.read c ∉ [note] := by
    intro c h
    rw [List.mem_singleton] at h
    subst h
    cases noted
  refine ⟨rfl, ⟨[note], rfl, fun n hn => ?_⟩, fun before => before.write unread fun n hn => ?_⟩
  · have other : name ≠ n := by
      rintro rfl
      exact hn (by simp [Note.changed, noted])
    show (r.run st).2.scope.locals.get? n = _
    rw [wrote, Table.get?_insert_of_ne _ _ other]
  · have other : name ≠ n := by
      rintro rfl
      exact hn (by simp [Note.touched, touched])
    show (r.run st).2.scope.locals.get? n = _
    rw [wrote, Table.get?_insert_of_ne _ _ other]

theorem set (name : String) (d : Datum) : Traces g (Traced.set name d) (Run.set name d) :=
  write rfl fun _ => rfl

theorem clear (name : String) : Traces g (Traced.clear name) (Run.clear name) :=
  write rfl fun _ => rfl

end Traces

end Blockwork
