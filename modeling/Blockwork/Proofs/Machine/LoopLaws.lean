import Blockwork.Proofs.Context
import Blockwork.Proofs.Counting
import Blockwork.Proofs.Machine.Bounds
import Blockwork.Proofs.Machine.Rounds

/-!
# The laws of loops

A loop finds its count, its list and its cap when it starts.  From then on its course is lawful
(`Loop.Lawful`), whatever its body is and does: each entry finds the variables of its own iteration, a
move that ends the loop is its last, and without such a move the loop runs to the end of its mode.

What is load-bearing is that nothing of the scene in which the loop starts is looked at again.
`Cursor.start_cases` takes out of it what the laws are about, and the rest is about moves.
-/

namespace Blockwork

/-! ## Counts -/

/-- The whole part of a float that is not negative, within a cap: zero for what is negative or no number. -/
def Binary.floorWithin (cap : Nat) (x : Float) : Nat :=
  match read x with
  | .nan => 0
  | .infinite negative => if negative then 0 else cap
  | .finite negative m q => min ⌊if negative then -(m * 2 ^ q : ℚ) else m * 2 ^ q⌋.toNat cap

theorem Binary.toNat_saturate_eq (cap : Nat) (x : Float) : (saturate 0 cap x).toNat = floorWithin cap x := by
  unfold saturate floorWithin
  rcases read x with _ | negative | ⟨negative, m, q⟩
  · rfl
  · cases negative <;> simp
  · dsimp only
    rw [wholeDown_eq_floor]
    have value : (0 : ℚ) ≤ m * 2 ^ q := by positivity
    cases negative with
    | true =>
        have below : ⌊-(m * 2 ^ q : ℚ)⌋ ≤ 0 := Int.floor_nonpos (by linarith)
        simp only [if_true]
        omega
    | false =>
        have floor : ⌊(m * 2 ^ q : ℚ)⌋.toNat = ⌊(m * 2 ^ q : ℚ)⌋₊ := rfl
        simp only [Bool.false_eq_true, if_false]
        omega

namespace Loop

variable {f : Frame} {body : Run Outcome} {c : Cursor} {st st' : RunState} {moves : List Move}
  {ending : Ending}

/-! ## The laws -/

/-- What the body of a loop finds at its start: the number of the iteration, from zero and from one, and
for a loop through a list the element of the list that was found when the loop started. -/
structure Published (s : Scene) (r : Repeat) (i : Nat) (c : Context) : Prop where
  index : c.get? "_loop_index" = some (.number (Binary.ofNat i))
  count : c.get? "_loop_count" = some (.number (Binary.ofNat (i + 1)))
  value : r.mode = some .forEach → ∃ d x, s.require r.list "loop list" = .ok d ∧ d.toList[i]? = some x ∧
    c.get? "_loop_value" = some x

/-- What a loop that no move ends early does, and how it ends, if it is not cancelled. -/
def Course (limits : Limits) (s : Scene) (r : Repeat) (marks : List Mark) (o : Outcome) : Prop :=
  let cap := Cursor.capOf limits r
  match r.mode with
  | none => False
  | some .times => ∃ n, s.number r.count "loop count" = .ok n ∧
      marks = List.replicate (Binary.floorWithin cap n) .body ∧ o = .success
  | some .forEach => ∃ d, s.require r.list "loop list" = .ok d ∧
      marks = List.replicate (min d.toList.length cap) .body ∧ o = .success
  | some .while_ =>
      (∃ k ≤ cap, marks = (List.replicate k [.yes, .body]).flatten ++ [.no] ∧ o = .success) ∨
      (marks = (List.replicate cap [.yes, .body]).flatten ++ [.yes] ∧
        o = .error (.excess (.iterations .while_ cap)))
  | some .until_ =>
      (∃ k < cap, marks = (List.replicate k [.body, .no]).flatten ++ [.body, .yes] ∧ o = .success) ∨
      (marks = (List.replicate cap [.body, .no]).flatten ∧ o = .error (.excess (.iterations .until_ cap)))
  | some .forever =>
      marks = List.replicate cap .body ∧ o = .error (.excess (.iterations .forever cap))

/-- What holds of every course of a loop that was started in a scene. -/
structure Lawful (limits : Limits) (s : Scene) (f : Frame) (r : Repeat) (moves : List Move)
    (ending : Ending) (st : RunState) : Prop where
  /-- The body is entered within the cap. -/
  capped : (entries moves).length ≤ Cursor.capOf limits r
  /-- Each entry finds the variables of its own iteration. -/
  published : ∀ i entered o, (entries moves)[i]? = some (entered, o) → Published s r i ⟨f, entered.scope⟩
  /-- A body that is left early or fails, or a question that fails, is the last that the loop does. -/
  early : ∀ before x after o, moves = before ++ x :: after → x.ends? = some o → after = [] ∧ ending = .finished o
  /-- A loop without such a move runs to the end of its mode. -/
  course : (∀ x ∈ moves, x.ends? = none) → ∀ o, ending = .finished o → Course limits s r (moves.map Move.mark) o
  /-- A loop that is cancelled has found its signal raised after a number of rounds. -/
  halted : ending = .cancelled → st.machine.signals.isRaised f.cancel = true ∧
    ∃ mode k, r.mode = some mode ∧ moves.map Move.mark = rounds mode k

/-! ## What the body finds -/

/-- The variables of an iteration stand over those that were there before. -/
theorem context_publish (f : Frame) (c : Cursor) (st : RunState) :
    (⟨f, ((publish c).run st).2.scope⟩ : Context) =
      ((⟨f, ((publishItem c).run st).2.scope⟩ : Context).set "_loop_index"
        (.number (Binary.ofNat c.iteration))).set "_loop_count" (.number (Binary.ofNat c.iteration + 1)) :=
  rfl

theorem get?_publishItem (f : Frame) {c : Cursor} {d : Datum} (mode : c.mode = .forEach)
    (item : c.items[c.iteration]? = some d) (st : RunState) :
    (⟨f, ((publishItem c).run st).2.scope⟩ : Context).get? "_loop_value" = some d := by
  have sets : publishItem c = Run.set "_loop_value" d := by simp only [publishItem, mode, item]
  rw [sets]
  show ((⟨f, st.scope⟩ : Context).set "_loop_value" d).get? "_loop_value" = some d
  simp [Context.get?_set]

/-- A loop publishes what its iteration is to find. -/
theorem published_of_shows {s : Scene} {limits : Limits} {r : Repeat} {i : Nat}
    (started : Cursor.start s limits r = .ok c) (word : limits.maxIterations ≤ Limits.maxWord32)
    (room : i < c.room) (shown : Shows (ahead c i) st) : Published s r i ⟨f, st.scope⟩ := by
  obtain ⟨before, rfl⟩ := shown
  obtain ⟨zero, -, mode, given⟩ := Cursor.start_cases started
  have here : (ahead c i).iteration = i := by rw [ahead, zero, Nat.zero_add]
  have below : i < c.limit := Nat.lt_of_lt_of_le room (Nat.sub_le _ _)
  have small : i + 1 < 2 ^ 53 := by
    have limit := (Cursor.limit_start started).2
    have cap := Cursor.capOf_le_word r word
    have most : Limits.maxWord32 < 2 ^ 32 := by decide
    omega
  rw [context_publish, here]
  constructor
  · simp [Context.get?_set]
  · simp [Context.get?_set, Binary.ofNat_add_one small]
  · intro forEach
    have through : c.mode = .forEach := Option.some.inj (mode.symm.trans forEach)
    rw [through] at given
    obtain ⟨-, d, list, items⟩ := given
    have size : i < c.items.size := by rwa [Cursor.limit, through] at below
    have taken : c.items[i]? = d.toList[i]? := by
      rw [items] at size ⊢
      rw [List.getElem?_toArray, List.getElem?_take_of_lt]
      simp at size
      omega
    have item : c.items[i]? = some c.items[i] := Array.getElem?_eq_getElem size
    refine ⟨d, c.items[i], list, taken.symm.trans item, ?_⟩
    have value := get?_publishItem f (c := ahead c i) through (by rw [here]; exact item) before
    simp [Context.get?_set, value]

/-- A loop that no move ends early runs to the end of its mode. -/
theorem course_of_ends {s : Scene} {limits : Limits} {r : Repeat} {k : Nat} {tail : List Mark} {o : Outcome}
    (started : Cursor.start s limits r = .ok c) (ends : Ends c k tail (.finished o)) :
    Course limits s r (rounds c.mode k ++ tail) o := by
  obtain ⟨zero, cap, mode, given⟩ := Cursor.start_cases started
  have room : c.room = c.limit := by rw [Cursor.room, zero, Nat.sub_zero]
  have endless (other : c.mode = .while_ ∨ c.mode = .until_ ∨ c.mode = .forever) :
      c.room = Cursor.capOf limits r := by
    rw [room, Cursor.limit, ← cap]
    rcases other with other | other | other <;> rw [other]
  unfold Course
  rw [mode]
  dsimp only
  cases ends with
  | counted counts =>
      rcases counts with counts | counts <;> rw [counts] at given ⊢
      · obtain ⟨-, n, count, bound⟩ := given
        have entered : c.room = Binary.floorWithin (Cursor.capOf limits r) n := by
          rw [room, Cursor.limit, counts, ← Binary.toNat_saturate_eq, ← bound]
        exact ⟨n, count, by rw [entered]; simp [rounds, round], rfl⟩
      · obtain ⟨-, d, list, items⟩ := given
        have entered : c.room = min d.toList.length (Cursor.capOf limits r) := by
          rw [room, Cursor.limit, counts]
          simp [items, Nat.min_comm]
        exact ⟨d, list, by rw [entered]; simp [rounds, round], rfl⟩
  | no within asks =>
      rw [endless (.inl asks)] at within
      rw [asks]
      exact .inl ⟨k, within, rfl, rfl⟩
  | yesAgain asks =>
      rw [endless (.inl asks), overrun, cap, asks]
      exact .inr ⟨rfl, rfl⟩
  | yes below asks =>
      rw [endless (.inr (.inl asks))] at below
      rw [asks]
      exact .inl ⟨k, below, rfl, rfl⟩
  | overrun goesOn =>
      rcases goesOn with goesOn | goesOn
      · rw [endless (.inr (.inl goesOn)), overrun, cap, goesOn, List.append_nil]
        exact .inr ⟨rfl, rfl⟩
      · rw [endless (.inr (.inr goesOn)), overrun, cap, goesOn, List.append_nil]
        exact ⟨by simp [rounds, round], rfl⟩

/-- Every course of a loop is lawful. -/
theorem Goes.lawful {s : Scene} {limits : Limits} {r : Repeat} (h : Goes f body c st moves ending st')
    (started : Cursor.start s limits r = .ok c) (word : limits.maxIterations ≤ Limits.maxWord32) :
    Lawful limits s f r moves ending st' := by
  have limit := (Cursor.limit_start started).2
  refine ⟨?_, ?_, h.early, ?_, ?_⟩
  · exact h.length_entries_le.trans ((Nat.sub_le _ _).trans limit)
  · intro i entered o entry
    obtain ⟨room, shown⟩ := h.entered i entered o entry
    exact published_of_shows started word room shown
  · rintro calm o rfl
    obtain ⟨k, tail, marks, ends⟩ := h.calm calm
    rw [marks]
    exact course_of_ends started ends
  · rintro rfl
    have calm : ∀ x ∈ moves, x.ends? = none := by
      intro x mem
      obtain ⟨before, after, split⟩ := List.append_of_mem mem
      cases ends : x.ends? with
      | none => rfl
      | some o => cases (h.early before x after o split ends).2
    obtain ⟨k, tail, marks, ends⟩ := h.calm calm
    cases ends
    exact ⟨h.raised rfl, c.mode, k, (Cursor.start_cases started).2.2.1, by rw [marks, List.append_nil]⟩

end Loop

/-- **Loops are lawful.**  Whatever its body is and does, a loop at once fails without an effect if it cannot
start, and otherwise it makes a course of moves and ends with the outcome of the course.  Each entry into
the body finds the variables of its own iteration, and there are no more entries than the cap allows.  A
body that leaves the loop or fails, or a question that fails, is the last move, and the loop ends with what
that comes to: leaving is a success, and a returned value or a failure is handed on.  Without such a move,
and unless the loop is cancelled, each mode has its own course: a count and a list are gone through as far
as the cap allows; a loop that asks before or after its body ends with the first answer that ends it, and
one that has got no such answer when it is at its cap fails, as does one that does not ask.  The general
cap is a number of thirty-two bits, as it is in a file; below that the float that counts is exact. -/
theorem loops_lawful (limits : Limits) (call : Interpreter.Caller) (f : Frame) (previous : Option Bool)
    (children : List Block) (inner : Frame → Run Outcome) (r : Repeat) (st : RunState)
    (sync : r.isAsync = false) (word : limits.maxIterations ≤ Limits.maxWord32) :
    let s : Scene := ⟨⟨f, st.scope⟩, st.machine.world⟩
    let run := (Interpreter.perform limits call f previous children inner (.repeat_ r)).run st
    (∃ e, Cursor.start s limits r = .error e ∧ run = ((.error e, none), st)) ∨
      ∃ c moves ending st', Cursor.start s limits r = .ok c ∧
        Loop.Goes f (inner f) c st moves ending st' ∧ run = ((ending.outcome, none), st') ∧
        Loop.Lawful limits s f r moves ending st' := by
  intro s run
  have performed : run = ((Loop.repeat_ limits f r children (inner f)).run st).map (·, none) id := rfl
  have scene : (⟨⟨f, st.scope⟩, st.machine.world⟩ : Scene) = s := rfl
  rw [performed, Loop.run_repeat, scene]
  cases started : Cursor.start s limits r with
  | error e => exact .inl ⟨e, rfl, rfl⟩
  | ok c =>
      obtain ⟨moves, ending, st', goes⟩ := Loop.exists_goes f (inner f) c.room rfl st
      refine .inr ⟨c, moves, ending, st', rfl, goes, ?_, goes.lawful started word⟩
      simp only [sync, Bool.false_eq_true, if_false, goes.sound]
      rfl

/-- A body that clears the number of the round and goes on early. -/
def meddling : List Block :=
  [⟨⟨2⟩, .variable_ { op := some .clear, name := "_loop_index" }, []⟩, ⟨⟨3⟩, .continue_, []⟩]

/-- Around the body that meddles, a loop without an end of its own is lawful and fails after two rounds. -/
theorem loops_lawful_meddling : ∃ c moves ending st',
    Loop.Goes (Context.detached ⟨1⟩ 0).frame (Interpreter.run {} (Context.detached ⟨1⟩ 0).frame meddling)
      c ⟨{}, {}⟩ moves ending st' ∧
    ending = .finished (.error (.excess (.iterations .forever 2))) ∧
    Loop.Lawful {} ⟨Context.detached ⟨1⟩ 0, {}⟩ (Context.detached ⟨1⟩ 0).frame
      ((Repeat.ofMode .forever).capped 2) moves ending st' := by
  have word : ({} : Limits).maxIterations ≤ Limits.maxWord32 := by decide
  rcases loops_lawful {} (Interpreter.call {} 64) (Context.detached ⟨1⟩ 0).frame none meddling
    (fun f => Interpreter.run {} f meddling) ((Repeat.ofMode .forever).capped 2) ⟨{}, {}⟩ rfl word with
    ⟨e, failed, -⟩ | ⟨c, moves, ending, st', -, goes, ran, lawful⟩
  · cases failed
  · have outcome : ending.outcome = .error (.excess (.iterations .forever 2)) :=
      (congrArg (fun run => run.1.1) ran).symm.trans (by with_unfolding_all rfl)
    cases ending with
    | cancelled => cases outcome
    | finished o =>
        obtain rfl : o = .error (.excess (.iterations .forever 2)) := outcome
        exact ⟨c, moves, _, st', goes, rfl, lawful⟩

end Blockwork
