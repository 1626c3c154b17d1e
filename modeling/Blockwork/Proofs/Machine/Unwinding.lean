import Blockwork.Proofs.Machine.Calls
import Blockwork.Proofs.Machine.Nesting

/-!
# How a run is cut short

A block that fails ends everything that it is in the midst of, and a returned value ends what is in the
same body of a function.  Nothing else runs before these ends: what comes to its end after the block are
the blocks around it, from the inside to the outside, and each of them ends in the same way.

## What is load-bearing

* `Outcome.Outlasts` says how far out an outcome goes, in calls.  It is the one place where failures and
  returned values differ.
* `Along` is `Amid` with the blocks that are begun on the way and have not ended.
* `Does.cutsShort` is one induction over everything that can be done.  Each rule says how the end of a
  part is handed on to the whole, and `CutsShort.into` puts the rest together.
-/

namespace Blockwork

open Interpreter

/-- An outcome ends everything around it, as far as a number of calls out. -/
def Outcome.Outlasts : Outcome → Nat → Prop
  | .error _, _ => True
  | .return_ _, n => n = 0
  | _, _ => False

namespace Outcome

variable {o : Outcome}

theorem Outlasts.not_success {n : Nat} (h : o.Outlasts n) : o.isSuccess = false := by
  cases o with
  | success => cases h
  | _ => rfl

theorem Outlasts.of_add {k n : Nat} (h : o.Outlasts (k + n)) : o.Outlasts k ∧ o.Outlasts n := by
  cases o with
  | error e => exact ⟨trivial, trivial⟩
  | return_ v =>
      have none : k + n = 0 := h
      exact ⟨by show k = 0; omega, by show n = 0; omega⟩
  | _ => cases h

/-- No outcome but a failure gets out of a call. -/
theorem Outlasts.is_error (h : o.Outlasts 1) : ∃ e, o = .error e := by
  cases o with
  | error e => exact ⟨e, rfl⟩
  | return_ v => cases h
  | _ => cases h

end Outcome

namespace Loop

variable {f : Frame} {c : Cursor} {o : Outcome} {step : Step} {st st' : RunState}

/-- A loop hands on what ends it. -/
theorem eq_done_of_outlasts {n : Nat} (h : o.Outlasts n)
    (closed : (closes f c o).run st = (step, st')) : step = .done o := by
  cases o with
  | error e => exact (congrArg Prod.fst closed).symm
  | return_ v => exact (congrArg Prod.fst closed).symm
  | _ => cases h

end Loop

/-! ## The blocks around a block -/

/-- The end of a block in a frame, with an outcome. -/
def Deed.ended (o : Outcome) (x : Frame × Block) : Deed := .ran x.1 x.2 o

/-- Whether a deed is the end of a loop. -/
def Deed.endsLoop : Deed → Bool
  | .looped _ _ => true
  | _ => false

/-- The block that begins, with its frame. -/
def Onset.opened (x : Onset) : List (Frame × Block) :=
  match x.doing with
  | .block _ b => [(x.frame, b)]
  | _ => []

/-- While something is done, something begins: a number of calls has been entered and not left, and
these blocks have begun and not ended, the innermost first. -/
inductive Along (limits : Limits) : Onset → Nat → List (Frame × Block) → Onset → Prop where
  /-- The thing itself begins. -/
  | here {x : Onset} : Along limits x 0 [] x
  /-- The beginning of a part. -/
  | into {x y z : Onset} {k n : Nat} {outer : List (Frame × Block)} (first : Begins limits x k y)
      (rest : Along limits y n outer z) : Along limits x (k + n) (outer ++ x.opened) z

variable {limits : Limits}

theorem Along.amid {x y : Onset} {n : Nat} {outer : List (Frame × Block)}
    (h : Along limits x n outer y) : Amid limits x n y := by
  induction h with
  | here => exact .here
  | into first _ ih => exact .into first ih

/-- A block has run in the midst of something.  It was begun when these calls and blocks had been entered
and not left; it is known what had been done before its end and what was done after; and if its outcome
goes that far, the whole ends with it. -/
structure CutShort (limits : Limits) (x : Onset) (o : Outcome) (before : List Deed) (g : Frame) (b : Block)
    (own : Outcome) (after : List Deed) (calls : Nat) (outer : List (Frame × Block))
    (previous : Option Bool) (s : RunState) : Prop where
  /-- The block begins. -/
  way : Along limits x calls outer ⟨g, .block previous b, s⟩
  /-- It runs, and its own deeds are the last ones before its end. -/
  ran : ∃ deeds held s', deeds <:+ before ∧
    Does limits g (.block previous b) s (deeds ++ [.ran g b own]) (own, held) s'
  /-- The whole ends as the block does, and nothing is done after it: the blocks around it end, from the
  inside to the outside, with the same outcome, and so do the loops. -/
  cut : own.Outlasts calls → o = own ∧ (after.filter fun x => !x.endsLoop) = outer.map (Deed.ended own)

/-- The same, whatever was in progress. -/
def CutsShort (limits : Limits) (x : Onset) (o : Outcome) (before : List Deed) (g : Frame) (b : Block)
    (own : Outcome) (after : List Deed) : Prop :=
  ∃ calls outer previous s, CutShort limits x o before g b own after calls outer previous s

namespace CutsShort

variable {x y : Onset} {o o' own : Outcome} {before after : List Deed} {g : Frame} {b : Block} {k : Nat}

/-- From a part to the whole.  Before the part other things may have been done, and after it too. -/
theorem into (begins : Begins limits x k y) (part : CutsShort limits y o before g b own after)
    (pre post : List Deed) (hand : o = own → own.Outlasts k →
      o' = own ∧ (post.filter fun x => !x.endsLoop) = x.opened.map (Deed.ended own)) :
    CutsShort limits x o' (pre ++ before) g b own (after ++ post) := by
  obtain ⟨n, outer, previous, s, way, ⟨deeds, held, s', suffix, ran⟩, cut⟩ := part
  refine ⟨k + n, outer ++ x.opened, previous, s, .into begins way,
    ⟨deeds, held, s', suffix.trans (List.suffix_append pre before), ran⟩, fun far => ?_⟩
  obtain ⟨out, inside⟩ := far.of_add
  obtain ⟨same, ends⟩ := cut inside
  obtain ⟨same', ends'⟩ := hand same out
  rw [List.filter_append, ends, ends', List.map_append]
  exact ⟨same', rfl⟩

/-- Nothing is done after the part, and what is begun with the whole is not a block. -/
theorem into_last (begins : Begins limits x k y) (part : CutsShort limits y o before g b own after)
    (pre : List Deed) (closed : x.opened = []) (hand : o = own → own.Outlasts k → o' = own) :
    CutsShort limits x o' (pre ++ before) g b own after := by
  have whole : CutsShort limits x o' (pre ++ before) g b own (after ++ []) :=
    part.into begins pre [] fun same far => ⟨hand same far, by rw [closed]; rfl⟩
  rwa [List.append_nil] at whole

end CutsShort

/-- The place of an item in two lists that follow each other. -/
theorem cases_of_append_eq_append_cons {α : Type} {l l' before after : List α} {x : α}
    (split : l ++ l' = before ++ x :: after) :
    (∃ rest, l = before ++ x :: rest ∧ after = rest ++ l') ∨
      ∃ rest, before = l ++ rest ∧ l' = rest ++ x :: after := by
  rcases List.append_eq_append_iff.mp split with ⟨rest, rfl, last⟩ | ⟨rest, rfl, last⟩
  · exact .inr ⟨rest, rfl, last⟩
  · cases rest with
    | nil => exact .inr ⟨[], by simp, last.symm⟩
    | cons y rest =>
        obtain ⟨rfl, rfl⟩ := List.cons.inj last
        exact .inl ⟨rest, rfl, rfl⟩

/-- **What a block cuts short.**  Wherever a block has run, its outcome ends everything around it as far
as it goes, and nothing is run in between. -/
theorem Does.cutsShort {f : Frame} {doing : Doing} {st st' : RunState} {deeds : List Deed}
    {r : Outcome × Option Bool} (h : Does limits f doing st deeds r st') {before after : List Deed}
    {g : Frame} {b : Block} {own : Outcome} (split : deeds = before ++ .ran g b own :: after) :
    CutsShort limits ⟨f, doing, st⟩ r.1 before g b own after := by
  induction h generalizing before after with
  | settled _ | postponed _ | spread _ | nil | tooDeep _ | refused _ _ | cancelled _ | ended _ _ =>
      simp [List.cons_eq_append_iff] at split
  | within chose _ ih => exact (ih split).into_last (.within chose) [] rfl fun same _ => same
  | loop chose _ ih => exact (ih split).into_last (.loop chose) [] rfl fun same _ => same
  | call chose _ ih => exact (ih split).into_last (.call chose) [] rfl fun same _ => same
  | @block f previous id i children st st₁ deeds r inside ih =>
      rcases cases_of_append_eq_append_cons split with ⟨rest, parts, rfl⟩ | ⟨rest, rfl, last⟩
      · exact (ih parts).into .block [] [.ran f ⟨id, i, children⟩ r.1] fun same _ =>
          ⟨same, by rw [same]; rfl⟩
      -- the block itself
      · obtain ⟨rfl, ⟨rfl, rfl, rfl⟩, rfl⟩ :
            rest = [] ∧ (g = f ∧ b = ⟨id, i, children⟩ ∧ own = r.1) ∧ after = [] := by
          simpa [List.cons_eq_append_iff] using last
        rw [List.append_nil]
        exact ⟨0, [], previous, st, .here, ⟨deeds, r.2, _, List.suffix_rfl, .block inside⟩,
          fun _ => ⟨rfl, rfl⟩⟩
  | stop _ _ ih => exact (ih split).into_last .first [] rfl fun same _ => same
  | @go f previous held b' others st st₁ st' deeds deeds' o o' first succeeded _ ih ih' =>
      rcases cases_of_append_eq_append_cons split with ⟨rest, parts, rfl⟩ | ⟨rest, rfl, parts⟩
      -- what has succeeded is not cut short
      · refine (ih parts).into .first [] deeds' fun same far => ?_
        obtain rfl : o = own := same
        rw [far.not_success] at succeeded
        cases succeeded
      · exact (ih' parts).into_last (.others first succeeded) deeds rfl fun same _ => same
  | @last f r body c counts st st₁ st₂ st' deeds o o' quiet opened _ closed ih =>
      rcases cases_of_append_eq_append_cons split with ⟨rest, parts, rfl⟩ | ⟨rest, rfl, loop⟩
      · refine (ih parts).into (.body quiet opened) [] [.looped r (counts ++ [c.iteration])]
          fun same far => ?_
        obtain rfl : o = own := same
        cases Loop.eq_done_of_outlasts far closed
        exact ⟨rfl, rfl⟩
      · simp [List.cons_eq_append_iff] at loop
  | @next f r body c c' counts st st₁ st₂ st₃ st' deeds deeds' o o' quiet opened inside closed _ ih
      ih' =>
      rcases cases_of_append_eq_append_cons split with ⟨rest, parts, rfl⟩ | ⟨rest, rfl, parts⟩
      -- a loop that goes on has not been cut short
      · refine (ih parts).into (.body quiet opened) [] deeds' fun same far => ?_
        obtain rfl : o = own := same
        cases Loop.eq_done_of_outlasts far closed
      · exact (ih' parts).into_last (.round quiet opened inside closed) deeds rfl fun same _ => same
  | @entered f c st st₁ st' head b' values deeds o o' room found _ left ih =>
      cases before with
      | nil => cases split
      | cons x before =>
          obtain ⟨rfl, parts⟩ := List.cons.inj split
          refine (ih parts).into_last (.entered room found)
            [.called (bindParameters ⟨f, st.scope⟩ head.parameters values).frame] rfl fun same far => ?_
          obtain ⟨e, rfl⟩ := far.is_error
          obtain rfl : o = .error e := same
          cases left
          rfl

/-- Siblings that run in a context come to an end. -/
theorem Context.exists_does (c : Context) (m : Machine) (limits : Limits) (body : List Block) :
    ∃ deeds o st, Does limits c.frame (.siblings none body) ⟨c.scope, m⟩ deeds (o, none) st ∧
      c.runBlocks m limits body = (o, ⟨c.frame, st.scope⟩, st.machine) := by
  obtain ⟨deeds, o, held, st, done⟩ := ends limits c.frame (.siblings none body) ⟨c.scope, m⟩
  obtain rfl := done.held_siblings
  have ran : (run limits c.frame body).run ⟨c.scope, m⟩ = (o, st) := Run.outcome_eq done.sound
  exact ⟨deeds, o, st, done, by rw [runBlocks, exec, ran]⟩

/-! ## Failures -/

/-- The failure that an outcome is. -/
def Outcome.failure? : Outcome → Option Failure
  | .error e => some e
  | _ => none

theorem Outcome.failure?_eq_some_iff {o : Outcome} {e : Failure} : o.failure? = some e ↔ o = .error e := by
  cases o <;> simp [failure?]

/-- The failure of a block that has run. -/
def Deed.failure? : Deed → Option Failure
  | .ran _ _ o => o.failure?
  | _ => none

theorem Deed.failure?_eq_some_iff {deed : Deed} {e : Failure} :
    deed.failure? = some e ↔ ∃ g b, deed = .ran g b (.error e) := by
  cases deed <;> simp [failure?, Outcome.failure?_eq_some_iff]

/-- Siblings that do not succeed end as one of them does. -/
theorem Does.exists_ran {f : Frame} {bs : List Block} {previous held : Option Bool} {st st' : RunState}
    {deeds : List Deed} {o : Outcome} (h : Does limits f (.siblings previous bs) st deeds (o, held) st')
    (failed : o.isSuccess = false) : ∃ b, .ran f b o ∈ deeds := by
  induction bs generalizing previous st deeds with
  | nil =>
      cases h
      cases failed
  | cons b bs ih =>
      cases h with
      | stop first _ =>
          cases first
          exact ⟨_, List.mem_append_right _ (List.mem_singleton_self _)⟩
      | go first _ others =>
          obtain ⟨b', ran⟩ := ih others
          exact ⟨b', List.mem_append_right _ ran⟩

/-- Siblings fail exactly if some block fails, at whatever depth, and with its failure. -/
theorem Does.error_iff {f : Frame} {bs : List Block} {previous held : Option Bool} {st st' : RunState}
    {deeds : List Deed} {o : Outcome} (h : Does limits f (.siblings previous bs) st deeds (o, held) st')
    (e : Failure) : o = .error e ↔ e ∈ deeds.filterMap Deed.failure? := by
  simp only [List.mem_filterMap, Deed.failure?_eq_some_iff]
  constructor
  · rintro rfl
    obtain ⟨b, ran⟩ := h.exists_ran rfl
    exact ⟨_, ran, f, b, rfl⟩
  · rintro ⟨_, ran, g, b, rfl⟩
    obtain ⟨before, after, split⟩ := List.append_of_mem ran
    obtain ⟨calls, outer, previous, s, -, -, cut⟩ := h.cutsShort split
    exact (cut trivial).1

/-! ## Returned values and calls -/

/-- What ends a part ends the whole, if it goes that far. -/
theorem Begins.hand_on {x y : Onset} {k : Nat} {own : Outcome} {deeds : List Deed} {held : Option Bool}
    {s : RunState} (h : Begins limits x k y) (part : Does limits y.frame y.doing y.state deeds (own, held) s)
    (far : own.Outlasts k) : ∃ deeds held s, Does limits x.frame x.doing x.state deeds (own, held) s := by
  cases h with
  | within chose =>
      obtain rfl := part.held_siblings
      exact ⟨_, _, _, .within chose part⟩
  | loop chose =>
      obtain rfl := part.held_rounds
      exact ⟨_, _, _, .loop chose part⟩
  | call chose =>
      obtain rfl := part.held_call
      exact ⟨_, _, _, .call chose part⟩
  | block => exact ⟨_, _, _, .block part⟩
  | first => exact ⟨_, _, _, .stop part far.not_success⟩
  | others first succeeded =>
      obtain rfl := part.held_siblings
      exact ⟨_, _, _, .go first succeeded part⟩
  | @body f r body c counts st st₁ quiet opened =>
      obtain rfl := part.held_siblings
      rcases closed : (Loop.closes f c own).run s with ⟨step, st'⟩
      cases Loop.eq_done_of_outlasts far closed
      exact ⟨_, _, _, .last quiet opened part closed⟩
  | round quiet opened inside closed =>
      obtain rfl := part.held_rounds
      exact ⟨_, _, _, .next quiet opened inside closed part⟩
  | entered room found =>
      obtain rfl := part.held_siblings
      obtain ⟨e, rfl⟩ := far.is_error
      exact ⟨_, _, _, .entered room found part rfl⟩

/-- The same, from anywhere in the whole. -/
theorem Amid.hand_on {x y : Onset} {n : Nat} {own : Outcome} {deeds : List Deed} {held : Option Bool}
    {s : RunState} (h : Amid limits x n y) (part : Does limits y.frame y.doing y.state deeds (own, held) s)
    (far : own.Outlasts n) : ∃ deeds held s, Does limits x.frame x.doing x.state deeds (own, held) s := by
  induction h with
  | here => exact ⟨_, _, _, part⟩
  | into first _ ih =>
      obtain ⟨out, inside⟩ := far.of_add
      obtain ⟨deeds, held, s, whole⟩ := ih part inside
      exact first.hand_on whole out

/-- If calls are in progress, there is one that was entered last. -/
theorem Amid.last_call {x y : Onset} {n : Nat} (h : Amid limits x n y) (inside : n ≠ 0) :
    ∃ m h c s z, n = m + 1 ∧ Amid limits x m ⟨h, .call c, s⟩ ∧ Begins limits ⟨h, .call c, s⟩ 1 z ∧
      Amid limits z 0 y := by
  induction h with
  | here => exact absurd rfl inside
  | @into x y z k n first rest ih =>
      by_cases more : n = 0
      · subst more
        cases first with
        | entered room found => exact ⟨0, _, _, _, _, rfl, .here, .entered room found, rest⟩
        | _ => exact absurd rfl inside
      · obtain ⟨m, h, c, s, z', rfl, amid, entered, rest⟩ := ih more
        exact ⟨k + m, h, c, s, z', rfl, .into first amid, entered, rest⟩

/-- A call whose function returns succeeds. -/
theorem Begins.call_returns {f : Frame} {c : Call} {st s : RunState} {y : Onset} {v : Option Datum}
    {deeds : List Deed} {held : Option Bool} (h : Begins limits ⟨f, .call c, st⟩ 1 y)
    (part : Does limits y.frame y.doing y.state deeds (.return_ v, held) s) :
    ∃ deeds s, Does limits f (.call c) st deeds (.success, none) s := by
  cases h with
  | entered room found =>
      obtain rfl := part.held_siblings
      exact ⟨_, _, .entered room found part (leave_of_ne_error nofun)⟩

end Blockwork
