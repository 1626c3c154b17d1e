import Blockwork.Proofs.Machine.Behalf
import Blockwork.Proofs.Machine.Closed
import Blockwork.Proofs.Machine.Unwinding

/-!
# What the log holds

A run notes every block that it has completed, in the order in which they are completed, until the log
is full; what finds no room is counted.  The body of a function notes into a log of its own, which has
the room that the caller has left and is put behind the caller's when the function has ended.

So it makes no difference to the log whether blocks are run here or in a call: log and counter are what
they would be if all blocks had been noted one after another (`Context.log_runBlocks`).  A failure is
the exception.  It takes the log of the functions that it leaves with it.

## What is load-bearing

`Scope.Notes` says what a series of entries does to a log, with the room as a number that is given
before the first of them.  Two such series add up (`Notes.trans`) although the second finds less room,
and so do the log of a caller and that of a callee (`Notes.mergeBack`), for the same reason.
-/

namespace Blockwork

open Interpreter

/-! ## Entries -/

/-- What the log says of a deed, if it is the end of a block. -/
def Deed.entry? : Deed → Option LogEntry
  | .ran _ b o => some ⟨b.id, b.blockType, o.label⟩
  | _ => none

/-- The blocks that were completed, in the order of their completion. -/
def Deed.entries (deeds : List Deed) : List LogEntry := deeds.filterMap entry?

@[simp] theorem Deed.entries_append (deeds deeds' : List Deed) :
    entries (deeds ++ deeds') = entries deeds ++ entries deeds' :=
  List.filterMap_append

/-- Entries have been noted one after another.  Those that fit are in the log and the others have been
counted. -/
structure Scope.Notes (limit : Nat) (s : Scope) (entries : List LogEntry) (s' : Scope) : Prop where
  /-- The log goes on with the entries that fit. -/
  log : s'.log.toList = s.log.toList ++ entries.take (limit - s.log.size)
  /-- The others are counted. -/
  dropped : s'.dropped = s.dropped + (entries.drop (limit - s.log.size)).length

namespace Scope.Notes

variable {limit : Nat} {s s' s'' : Scope} {entries entries' : List LogEntry}

/-- Nothing is noted. -/
theorem of_eq (log : s'.log = s.log) (dropped : s'.dropped = s.dropped) : s.Notes limit [] s' :=
  ⟨by simp [log], by simp [dropped]⟩

theorem refl (limit : Nat) (s : Scope) : s.Notes limit [] s := of_eq rfl rfl

theorem size_eq (h : s.Notes limit entries s') :
    s'.log.size = s.log.size + min (limit - s.log.size) entries.length := by
  rw [← Array.length_toList, h.log, List.length_append, List.length_take, Array.length_toList]

/-- A log within its limit stays there. -/
theorem size_le (h : s.Notes limit entries s') (fits : s.log.size ≤ limit) :
    s'.log.size ≤ limit := by
  have size := h.size_eq
  omega

/-- The second series finds the room that the first one has left. -/
theorem trans (h : s.Notes limit entries s') (h' : s'.Notes limit entries' s'') :
    s.Notes limit (entries ++ entries') s'' := by
  have size := h.size_eq
  have left : limit - s'.log.size = limit - s.log.size - entries.length := by omega
  constructor
  · rw [h'.log, h.log, left, List.take_append, List.append_assoc]
  · rw [h'.dropped, h.dropped, left, List.drop_append, List.length_append, Nat.add_assoc]

/-- A block is noted. -/
theorem record (limit : Nat) (s : Scope) (b : Block) (o : Outcome) :
    s.Notes limit [⟨b.id, b.blockType, o.label⟩] (s.record limit b o) := by
  unfold Scope.record
  split
  · next full =>
    rw [← Nat.sub_eq_zero_iff_le] at full
    exact ⟨by simp [full], by simp [full]⟩
  · next room =>
    obtain ⟨n, left⟩ := Nat.exists_eq_add_of_lt (Nat.not_le.mp room)
    have more : limit - s.log.size = n + 1 := by omega
    exact ⟨by simp [more], by simp [more]⟩

/-- What a callee has noted into the room that the caller had left is what the caller might have noted
itself. -/
theorem mergeBack {f : Frame} {inner : Context} {start : Scope} (log : start.log = #[])
    (dropped : start.dropped = 0)
    (h : start.Notes (Context.forCall ⟨f, s⟩).frame.logLimit entries inner.scope) :
    s.Notes f.logLimit entries (Context.mergeBack ⟨f, s⟩ inner).scope := by
  obtain ⟨noted, counted⟩ := h
  constructor
  · simpa [Context.mergeBack, Context.forCall, log] using noted
  · simpa [Context.mergeBack, Context.forCall, log, dropped] using counted

end Scope.Notes

/-- A function starts with an empty log. -/
theorem Interpreter.log_bindParameters (c : Context) (parameters : List String) (values : List Datum) :
    (bindParameters c parameters values).scope.log = #[] ∧
      (bindParameters c parameters values).scope.dropped = 0 := by
  obtain ⟨locals, bound⟩ := exists_bindParameters_eq c parameters values
  rw [bound]
  exact ⟨rfl, rfl⟩

/-! ## Runs that note nothing -/

/-- Nothing is noted, whatever the limit is. -/
def Run.Unlogged {α : Type} (r : Run α) : Prop :=
  ∀ (limit : Nat) (st : RunState), st.scope.Notes limit [] (r.run st).2.scope

namespace Run.Unlogged

variable {α β : Type}

theorem of_log_eq {r : Run α} (log : ∀ st, (r.run st).2.scope.log = st.scope.log)
    (dropped : ∀ st, (r.run st).2.scope.dropped = st.scope.dropped) : Unlogged r :=
  fun _ st => .of_eq (log st) (dropped st)

theorem pure (x : α) : Unlogged (Pure.pure x : Run α) := of_log_eq (fun _ => rfl) fun _ => rfl

theorem bind {r : Run α} {k : α → Run β} (h : Unlogged r) (h' : ∀ x, Unlogged (k x)) :
    Unlogged (r >>= k) :=
  fun limit st => (h limit st).trans (h' _ limit _)

/-- Whatever is done to anything but the log is not noted. -/
theorem writing : Writing Unlogged where
  pure := pure
  bind := bind
  scene _ := of_log_eq (fun _ => rfl) fun _ => rfl
  roll _ := of_log_eq (fun _ => rfl) fun _ => rfl
  useEffects _ := of_log_eq (fun _ => rfl) fun _ => rfl
  changeWorld _ := of_log_eq (fun _ => rfl) fun _ => rfl
  set _ _ := of_log_eq (fun _ => rfl) fun _ => rfl
  clear _ := of_log_eq (fun _ => rfl) fun _ => rfl

theorem contradict : Unlogged (Run.changeMachine Machine.contradict) :=
  of_log_eq (fun _ => rfl) fun _ => rfl

theorem stopLoop (f : Frame) : Unlogged (Run.stopLoop f) :=
  of_log_eq (fun _ => rfl) fun _ => rfl

theorem putOff (f : Frame) (wait : Float) (body : List Block) :
    Unlogged (Interpreter.putOff f wait body) :=
  of_log_eq (fun _ => rfl) fun _ => rfl

theorem handOver (f : Frame) (r : Repeat) (body : List Block) (c : Cursor) :
    Unlogged (Interpreter.handOver f r body c) := by
  intro limit st
  unfold StateT.run
  cases taken : st.machine.takeSlot f.actor with
  | error e =>
      simp only [Interpreter.handOver, taken]
      exact .refl limit st.scope
  | ok result =>
      simp only [Interpreter.handOver, Loop.spread, taken, StateT.run]
      exact .refl limit st.scope

/-- The same, of a run that is known. -/
theorem of_run {r : Run α} {x : α} {st st' : RunState} (h : Unlogged r) (ran : r.run st = (x, st'))
    (limit : Nat) : st.scope.Notes limit [] st'.scope := by
  have notes := h limit st
  rwa [ran] at notes

end Run.Unlogged

open Run (Unlogged) in
/-- What an instruction decides and changes by itself is not noted. -/
theorem Interpreter.unlogged_choose (limits : Limits) (f : Frame) (previous : Option Bool)
    (children : List Block) (i : Instruction) : Unlogged (choose limits f previous children i) :=
  Unlogged.writing.choose limits previous
    (fun m _ => Unlogged.writing.mathStep (fun _ => .contradict) f m) (.stopLoop f)
    (fun wait => .putOff f wait children) fun r _ c => .handOver f r children c

/-- The same, of a choice that is known. -/
theorem Interpreter.notes_of_choose {limits : Limits} {f : Frame} {previous : Option Bool}
    {children : List Block} {i : Instruction} {st st' : RunState} {x : Choice}
    (chose : (choose limits f previous children i).run st = (x, st')) (limit : Nat) :
    st.scope.Notes limit [] st'.scope :=
  Run.Unlogged.of_run (unlogged_choose limits f previous children i) chose limit

namespace Loop

variable {f : Frame} {c : Cursor} {st st' : RunState}

theorem notes_of_opens {x : Option Outcome} (opened : (opens f c).run st = (x, st'))
    (limit : Nat) : st.scope.Notes limit [] st'.scope :=
  Run.Unlogged.of_run (Run.Unlogged.writing.opens f c) opened limit

theorem notes_of_closes {o : Outcome} {step : Step} (closed : (closes f c o).run st = (step, st'))
    (limit : Nat) : st.scope.Notes limit [] st'.scope :=
  Run.Unlogged.of_run (Run.Unlogged.writing.closes f c o) closed limit

/-- Where an iteration does not end with a failure, its body has not failed. -/
theorem ne_error_of_closes {o : Outcome} {step : Step} (closed : (closes f c o).run st = (step, st'))
    (fine : ∀ e, step ≠ .done (.error e)) : ∀ e, o ≠ .error e := by
  rintro e rfl
  exact fine e (congrArg Prod.fst closed).symm

end Loop

/-! ## What a run notes -/

/-- What has been noted in a frame between two scopes: some of the blocks that were completed, and all of
them unless the end is a failure. -/
def Logged (f : Frame) (s : Scope) (deeds : List Deed) (o : Outcome) (s' : Scope) : Prop :=
  ∃ noted, noted.Sublist (Deed.entries deeds) ∧ s.Notes f.logLimit noted s' ∧
    ((∀ e, o ≠ .error e) → noted = Deed.entries deeds)

namespace Logged

variable {f : Frame} {s s' s'' : Scope} {deeds deeds' : List Deed} {o o' : Outcome}

/-- All that was completed is noted. -/
theorem of_notes (h : s.Notes f.logLimit (Deed.entries deeds) s') : Logged f s deeds o s' :=
  ⟨_, List.Sublist.refl _, h, fun _ => rfl⟩

/-- The same, of an outcome that is no failure. -/
theorem of_fine (h : Logged f s deeds o s') (fine : ∀ e, o ≠ .error e) :
    s.Notes f.logLimit (Deed.entries deeds) s' := by
  obtain ⟨noted, -, notes, complete⟩ := h
  rwa [complete fine] at notes

/-- Something is done before that is not noted. -/
theorem after (h : s.Notes f.logLimit [] s') (h' : Logged f s' deeds o s'') :
    Logged f s deeds o s'' := by
  obtain ⟨noted, part, notes, complete⟩ := h'
  exact ⟨noted, part, h.trans notes, complete⟩

/-- Something is done before. -/
theorem prepend (h : s.Notes f.logLimit (Deed.entries deeds) s') (h' : Logged f s' deeds' o s'') :
    Logged f s (deeds ++ deeds') o s'' := by
  obtain ⟨noted, part, notes, complete⟩ := h'
  rw [Logged, Deed.entries_append]
  exact ⟨_, part.append_left _, h.trans notes, fun fine => by rw [complete fine]⟩

/-- Something is done after, with the same outcome or after a success. -/
theorem append (h : Logged f s deeds o s') (h' : s'.Notes f.logLimit (Deed.entries deeds') s'')
    (hand : (∀ e, o' ≠ .error e) → ∀ e, o ≠ .error e) : Logged f s (deeds ++ deeds') o' s'' := by
  obtain ⟨noted, part, notes, complete⟩ := h
  rw [Logged, Deed.entries_append]
  exact ⟨_, part.append_right _, notes.trans h', fun fine => by rw [complete (hand fine)]⟩

end Logged

/-- A call that does not fail puts what the function has noted behind the log of the caller. -/
theorem Interpreter.notes_of_leave {f : Frame} {c : Call} {s : Scope} {parameters : List String}
    {values : List Datum} {o : Outcome} {entries : List LogEntry} {x : Outcome} {st st' : RunState}
    (fine : ∀ e, o ≠ .error e)
    (body : (bindParameters ⟨f, s⟩ parameters values).scope.Notes
      (bindParameters ⟨f, s⟩ parameters values).frame.logLimit entries st.scope)
    (left : (leave f c ⟨f, s⟩ (bindParameters ⟨f, s⟩ parameters values).frame o).run st = (x, st')) :
    s.Notes f.logLimit entries st'.scope := by
  obtain ⟨log, dropped⟩ := log_bindParameters ⟨f, s⟩ parameters values
  rw [leave_of_ne_error fine] at left
  cases left
  rw [bindParameters_frame] at body ⊢
  have merged : s.Notes f.logLimit entries
      (Context.mergeBack ⟨f, s⟩ ⟨(Context.forCall ⟨f, s⟩).frame, st.scope⟩).scope :=
    .mergeBack log dropped body
  have delivered := merged.trans (Run.Unlogged.writing.deliver f c o f.logLimit ⟨_, st.machine⟩)
  rwa [List.append_nil] at delivered

/-- **Every run notes what it completes.**  Each rule says what is done before and after the parts, and
nothing but the end of a block is noted. -/
theorem Does.logged {limits : Limits} {f : Frame} {doing : Doing} {st st' : RunState}
    {deeds : List Deed} {r : Outcome × Option Bool} (h : Does limits f doing st deeds r st') :
    Logged f st.scope deeds r.1 st'.scope := by
  induction h with
  | settled chose | postponed chose | spread chose => exact .of_notes (notes_of_choose chose _)
  | within chose _ ih =>
      obtain ⟨⟨target, rfl⟩, -⟩ := fits_of_choose chose
      exact .after (notes_of_choose chose _) ih
  | loop chose _ ih | call chose _ ih => exact .after (notes_of_choose chose _) ih
  | block _ ih => exact ih.append (.record ..) fun fine => fine
  | nil | cancelled _ | tooDeep _ | refused _ _ => exact .of_notes (.refl ..)
  | stop _ _ ih => exact ih
  | go first succeeded _ ih ih' =>
      refine .prepend (ih.of_fine ?_) ih'
      rintro e rfl
      cases succeeded
  | ended _ opened => exact .of_notes (Loop.notes_of_opens opened _)
  | last _ opened _ closed ih =>
      refine Logged.append (.after (Loop.notes_of_opens opened _) ih)
        (Loop.notes_of_closes closed _) fun fine => ?_
      exact Loop.ne_error_of_closes closed fun e same => fine e (Step.done.inj same)
  | next _ opened _ closed _ ih ih' =>
      have fine := Loop.ne_error_of_closes closed fun e => Step.noConfusion
      have body := (Loop.notes_of_opens opened _).trans (ih.of_fine fine)
      exact .prepend body (.after (Loop.notes_of_closes closed _) ih')
  | @entered f c st st₁ st' head b values deeds o o' _ _ _ left ih =>
      by_cases failed : ∃ e, o = .error e
      · obtain ⟨e, rfl⟩ := failed
        cases left
        exact ⟨[], List.nil_sublist _, .refl .., fun fine => absurd rfl (fine e)⟩
      · have fine : ∀ e, o ≠ .error e := not_exists.mp failed
        exact .of_notes (notes_of_leave fine (ih.of_fine fine) left)

/-- **The log law.**  In a context whose log is within its limit, blocks come to their end in one way only,
and the log is still within the limit.  Unless they have failed, it has gone on with as many of the blocks
that were completed, those in functions included, as fit, and all others have been counted.  If they have
failed, the same is true of some of the blocks that were completed. -/
theorem Context.log_runBlocks (limits : Limits) (c : Context) (m : Machine) (body : List Block)
    (fits : c.scope.log.size ≤ c.frame.logLimit) :
    ∃ deeds o s m', c.runBlocks m limits body = (o, ⟨c.frame, s⟩, m') ∧
      (∀ deeds' r st, Does limits c.frame (.siblings none body) ⟨c.scope, m⟩ deeds' r st ↔
        deeds' = deeds ∧ r = (o, none) ∧ st = ⟨s, m'⟩) ∧
      s.log.size ≤ c.frame.logLimit ∧
      ∃ noted, noted.Sublist (Deed.entries deeds) ∧ c.scope.Notes c.frame.logLimit noted s ∧
        ((∀ e, o ≠ .error e) → noted = Deed.entries deeds) := by
  obtain ⟨deeds, o, st, done, ran⟩ := c.exists_does m limits body
  have logged := done.logged
  obtain ⟨noted, -, notes, -⟩ := id logged
  refine ⟨deeds, o, st.scope, st.machine, ran, fun deeds' r st' => ⟨done.unique, ?_⟩,
    notes.size_le fits, logged⟩
  rintro ⟨rfl, rfl, rfl⟩
  exact done

/-- A context with room for two entries, and a function of two blocks. -/
def cramped : Context :=
  { frame := {
      actor := ⟨1⟩
      target := .nobody
      functions := ({} : Table String Block).insert "pair"
        ⟨⟨1⟩, .function { name := "pair" }, [⟨⟨2⟩, .stopLoop, []⟩, ⟨⟨3⟩, .return_ none, []⟩]⟩
      logLimit := 2
      cancel := 0 } }

/-- One block, and a call of the function. -/
def crowd : List Block :=
  [⟨⟨4⟩, .stopLoop, []⟩, ⟨⟨5⟩, .callFunction { function := "pair" }, []⟩]

/-- In it the log is full in the midst of the call.  Four blocks are completed; the first two are in the
log, and the other two have been counted. -/
theorem log_cramped : ∃ deeds s m', cramped.runBlocks {} {} crowd = (.success, ⟨cramped.frame, s⟩, m') ∧
    (∀ deeds' r st, Does {} cramped.frame (.siblings none crowd) ⟨{}, {}⟩ deeds' r st ↔
      deeds' = deeds ∧ r = (.success, none) ∧ st = ⟨s, m'⟩) ∧
    (Deed.entries deeds).take 2 = [⟨⟨4⟩, .stopLoop, "success"⟩, ⟨⟨2⟩, .stopLoop, "success"⟩] ∧
    (Deed.entries deeds).length = 4 ∧
    s.log.toList = (Deed.entries deeds).take 2 ∧ s.dropped = 2 := by
  obtain ⟨deeds, o, s, m', ran, unique, -, noted, -, notes, complete⟩ :=
    Context.log_runBlocks {} cramped {} crowd (Nat.zero_le _)
  have computed : cramped.runBlocks {} {} crowd = (.success, ⟨cramped.frame, {
      log := #[⟨⟨4⟩, .stopLoop, "success"⟩, ⟨⟨2⟩, .stopLoop, "success"⟩]
      dropped := 2 }⟩, {}) := by
    with_unfolding_all rfl
  cases ran.symm.trans computed
  obtain rfl := complete nofun
  have log : _ = (Deed.entries deeds).take 2 := notes.log
  have dropped : 2 = 0 + ((Deed.entries deeds).drop 2).length := notes.dropped
  have kept := congrArg List.length log
  rw [List.length_drop] at dropped
  exact ⟨deeds, _, _, computed, unique, log.symm, by omega, log, rfl⟩

end Blockwork
