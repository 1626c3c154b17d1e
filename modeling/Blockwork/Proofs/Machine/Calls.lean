import Blockwork.Proofs.Context
import Blockwork.Proofs.Machine.Deeds
import Blockwork.Proofs.Zeros

/-!
# What a call leaves behind

A function runs on a copy of its caller's variables.  When it has come to its end, the caller takes over
what its own variables have become and nothing else, and the returned value goes to the variable that the
call names.  A call that fails is as if the function had not touched a variable.

## What is load-bearing

* `Context.get?_mergeBack` says what look-ups find after the variables have been taken over, whatever the
  overlays are made of; `get?_deliver` says what the returned value does on top of that.
* A variable whose value is equal before and after is not written again.  Equal values may differ in the
  signs of zeros, and that is the only trace of it (`unsigned_merged`).
-/

namespace Blockwork

open Interpreter

/-- The value that is handed back with an outcome. -/
def Outcome.returned : Outcome → Option Datum
  | .return_ d => d
  | _ => none

/-- The variable to which a call hands the returned value.  Its name is filled in when the function has
ended. -/
def Call.resultVariable (c : Call) (s : Scene) : Option String := (wantedResult c).map s.variableName

/-- What look-ups find before a call, at the end of the function and after the call, when the call has
succeeded. -/
structure TakesOver (before last after : String → Option Datum) (result : Option String)
    (returned : Option Datum) : Prop where
  /-- What had a value is what it has become in the function, or unset if it was cleared there. -/
  kept : ∀ n, result ≠ some n → before n ≠ none →
    (after n).map Datum.unsigned = (last n).map Datum.unsigned
  /-- What had no value has none, whatever the function has made. -/
  dropped : ∀ n, result ≠ some n → before n = none → after n = none
  /-- The result variable has the returned value, or none. -/
  delivered : ∀ n, result = some n → after n = returned

/-- A call that has succeeded: it found a function and room for it, and the function came to its end
without a failure. -/
structure Call.Succeeds (limits : Limits) (f : Frame) (c : Call) (st st' : RunState) : Prop where
  /-- There is room for a call. -/
  room : f.callDepth < limits.maxCallDepth
  /-- There is a function, and it has come to its end. -/
  ended : ∃ head b values o st₁,
    callee ⟨⟨f, st.scope⟩, st.machine.world⟩ c = .ok (head, b, values) ∧
    (Interpreter.run limits (bindParameters ⟨f, st.scope⟩ head.parameters values).frame b.children).run
      ⟨(bindParameters ⟨f, st.scope⟩ head.parameters values).scope, st.machine⟩ = (o, st₁) ∧
    (∀ e, o ≠ .error e) ∧ st'.machine = st₁.machine ∧
    let inner : Context :=
      ⟨(bindParameters ⟨f, st.scope⟩ head.parameters values).frame, st₁.scope⟩
    TakesOver (Context.get? ⟨f, st.scope⟩) inner.get? (Context.get? ⟨f, st'.scope⟩)
      (c.resultVariable ⟨Context.mergeBack ⟨f, st.scope⟩ inner, st₁.machine.world⟩) o.returned

/-- A call that has failed: the caller's variables are as before, and if no function was entered, so is
everything else. -/
structure Call.Fails (limits : Limits) (f : Frame) (c : Call) (st : RunState) (e : Failure)
    (st' : RunState) : Prop where
  /-- No variable has changed. -/
  unchanged : Context.get? ⟨f, st'.scope⟩ = Context.get? ⟨f, st.scope⟩
  /-- Too many calls are in progress, or there is no such function, or it takes other arguments, or its
  body has failed. -/
  because : (limits.maxCallDepth ≤ f.callDepth ∧
      e = .excess (.callDepth limits.maxCallDepth (Text.trim c.function)) ∧ st' = st) ∨
    (callee ⟨⟨f, st.scope⟩, st.machine.world⟩ c = .error e ∧ st' = st) ∨
    ∃ head b values st₁, callee ⟨⟨f, st.scope⟩, st.machine.world⟩ c = .ok (head, b, values) ∧
      (Interpreter.run limits (bindParameters ⟨f, st.scope⟩ head.parameters values).frame
        b.children).run ⟨(bindParameters ⟨f, st.scope⟩ head.parameters values).scope, st.machine⟩ =
          (.error e, st₁) ∧ st'.machine = st₁.machine

/-- What has been taken over is what the variables have become, up to the signs of zeros. -/
theorem unsigned_merged {before last : String → Option Datum} {n : String} (had : before n ≠ none) :
    (Context.merged before last n).map Datum.unsigned = (last n).map Datum.unsigned := by
  obtain ⟨old, found⟩ := Option.ne_none_iff_exists'.mp had
  rw [Context.merged, found, Option.isNone_some, Bool.false_or]
  split
  · next kept =>
    rw [Context.isKept, found] at kept
    cases become : last n with
    | none =>
        rw [become] at kept
        cases kept
    | some d =>
        rw [become] at kept
        exact congrArg some (Datum.unsigned_eq_of_agrees kept)
  · rfl

/-- Handing a value back changes the result variable and nothing else. -/
theorem get?_deliver (c : Call) (o : Outcome) (x : Context) (m : Machine) :
    ((deliver x.frame c o).run ⟨x.scope, m⟩).2.machine = m ∧
    Context.get? ⟨x.frame, ((deliver x.frame c o).run ⟨x.scope, m⟩).2.scope⟩ = fun n =>
      if c.resultVariable ⟨x, m.world⟩ = some n then o.returned else x.get? n := by
  have looked : (Run.scene x.frame).run ⟨x.scope, m⟩ = (⟨x, m.world⟩, ⟨x.scope, m⟩) := rfl
  unfold deliver Call.resultVariable
  cases wantedResult c with
  | none => exact ⟨rfl, funext fun n => (if_neg nofun).symm⟩
  | some raw =>
      dsimp only
      rw [Run.bind_eq looked]
      simp only [Option.map_some, Option.some.injEq]
      have cleared (name : String) : ((Run.clear name).run ⟨x.scope, m⟩).2.machine = m ∧
          Context.get? ⟨x.frame, ((Run.clear name).run ⟨x.scope, m⟩).2.scope⟩ = fun n =>
            if name = n then none else x.get? n := ⟨rfl, Context.get?_clear x name⟩
      cases o with
      | return_ value =>
          cases value with
          | some d => exact ⟨rfl, Context.get?_set x _ d⟩
          | none => exact cleared _
      | success => exact cleared _
      | break_ => exact cleared _
      | continue_ => exact cleared _
      | error e => exact cleared _

/-- The variables of a caller that has taken over those of a function and been handed a value. -/
theorem takesOver_deliver (c : Call) (o : Outcome) (caller inner : Context) (m : Machine) :
    TakesOver caller.get? inner.get? (Context.get? ⟨caller.frame, ((deliver caller.frame c o).run
        ⟨(caller.mergeBack inner).scope, m⟩).2.scope⟩)
      (c.resultVariable ⟨caller.mergeBack inner, m.world⟩) o.returned := by
  have after := (get?_deliver c o (caller.mergeBack inner) m).2
  rw [Context.get?_mergeBack] at after
  refine ⟨fun n other had => ?_, fun n other had => ?_, fun n result => ?_⟩
  · exact (congrArg (Option.map Datum.unsigned) ((congrFun after n).trans (if_neg other))).trans
      (unsigned_merged had)
  · refine ((congrFun after n).trans (if_neg other)).trans ?_
    rw [Context.merged, had]
    rfl
  · exact (congrFun after n).trans (if_pos result)

/-- Going back to the caller from a function that has not failed. -/
theorem leave_of_ne_error {f : Frame} {c : Call} {caller : Context} {inner : Frame} {o : Outcome}
    {st : RunState} (fine : ∀ e, o ≠ .error e) :
    (leave f c caller inner o).run st = (.success, ((deliver f c o).run
      ⟨(caller.mergeBack ⟨inner, st.scope⟩).scope, st.machine⟩).2) := by
  cases o with
  | error e => exact absurd rfl (fine e)
  | _ => rfl

/-- **What a call does to its caller.** Every call, in every frame and state, succeeds or fails.

If it succeeds, a variable other than the result variable that had a value has afterwards what it has
become at the end of the function, which is nothing if it was cleared there; one that had no value has
none; and the result variable has the returned value, or none if nothing was returned.  If it fails, for
whatever reason, every variable of the caller is as before, and if no function was entered, so are the
world, the agenda, the effects and everything else. -/
theorem call_settles (limits : Limits) (f : Frame) (c : Call) (st : RunState) : ∃ st',
    ((call limits (callsLeft limits f) f c).run st = (.success, st') ∧ c.Succeeds limits f st st') ∨
    ∃ e, (call limits (callsLeft limits f) f c).run st = (.error e, st') ∧
      c.Fails limits f st e st' := by
  obtain ⟨deeds, o, held, st', done⟩ := ends limits f (.call c) st
  have ran := Run.outcome_eq done.sound
  refine ⟨st', ?_⟩
  cases done with
  | tooDeep full => exact .inr ⟨_, ran, rfl, .inl ⟨full, rfl, rfl⟩⟩
  | refused room found => exact .inr ⟨_, ran, rfl, .inr (.inl ⟨found, rfl⟩)⟩
  | @entered _ _ _ st₁ _ head b values deeds o _ room found inside left =>
      have body : (Interpreter.run limits _ b.children).run _ = (o, st₁) :=
        Run.outcome_eq inside.sound
      by_cases failed : ∃ e, o = .error e
      · obtain ⟨e, rfl⟩ := failed
        cases left
        exact .inr ⟨e, ran, rfl, .inr (.inr ⟨head, b, values, st₁, found, body, rfl⟩)⟩
      · have fine : ∀ e, o ≠ .error e := not_exists.mp failed
        rw [leave_of_ne_error fine] at left
        cases left
        let inner : Context :=
          ⟨(bindParameters ⟨f, st.scope⟩ head.parameters values).frame, st₁.scope⟩
        exact .inl ⟨ran, room, head, b, values, o, st₁, found, body, fine,
          (get?_deliver c o (Context.mergeBack ⟨f, st.scope⟩ inner) st₁.machine).1,
          takesOver_deliver c o ⟨f, st.scope⟩ inner st₁.machine⟩

end Blockwork
