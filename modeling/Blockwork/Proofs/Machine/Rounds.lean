import Blockwork.Proofs.Machine.Unwinding

/-!
# What loops do

A loop at once asks its question, enters its body, asks again, and at some point it ends.  `Loop.Goes` is
that course, move by move, over a body that may do anything.  What a loop of each mode does is then a
statement about a list of moves (`Loop.Lawful`), and it is the same whatever the body makes of the loop's
variables, its count or its list: these are found once, when the loop starts.

## What is load-bearing

* `Loop.opens` and `Loop.closes` are all that a loop does outside its body, and what each of the two can
  come to is known.  `Goes.early` and `Goes.calm` put that together along a course.
* `Loop.Goes.calm` is the one induction about how loops end: a number of rounds that are alike, and then
  one of five ends.  The modes differ in what a round is made of and in which of the ends they can have.
-/

namespace Blockwork

namespace Loop

/-- Something that a loop does. -/
inductive Move where
  /-- It asks its question. -/
  | asks (answer : Attempt Bool)
  /-- It enters its body, from a state, and the body ends with an outcome. -/
  | enters (st : RunState) (o : Outcome)

/-- How a loop ends. -/
inductive Ending where
  /-- It finds that it is cancelled. -/
  | cancelled
  /-- It is over. -/
  | finished (o : Outcome)

/-- The outcome of a loop. -/
def Ending.outcome : Ending → Outcome
  | .cancelled => .success
  | .finished o => o

/-- The question that is asked before a body. -/
def asksBefore (f : Frame) (c : Cursor) (st : RunState) : List Move :=
  match c.mode with
  | .while_ => [.asks ((ask f c).run st).1]
  | _ => []

/-- The question that is asked after a body. -/
def asksAfter (f : Frame) (c : Cursor) (o : Outcome) (st : RunState) : List Move :=
  match c.mode, o with
  | .until_, .success | .until_, .continue_ => [.asks ((ask f c.next).run st).1]
  | _, _ => []

/-- A loop asks at most once before a body. -/
theorem asksBefore_cases (f : Frame) (c : Cursor) (st : RunState) :
    asksBefore f c st = [] ∨
      c.mode = .while_ ∧ asksBefore f c st = [.asks ((ask f c).run st).1] := by
  unfold asksBefore
  split
  · next mode => exact .inr ⟨mode, rfl⟩
  · exact .inl rfl

/-- A loop asks at most once after a body, and only after one that has come to its end. -/
theorem asksAfter_cases (f : Frame) (c : Cursor) (o : Outcome) (st : RunState) :
    asksAfter f c o st = [] ∨
      (o = .success ∨ o = .continue_) ∧ c.mode = .until_ ∧
        asksAfter f c o st = [.asks ((ask f c.next).run st).1] := by
  unfold asksAfter
  split
  · exact .inr ⟨.inl rfl, ‹_›, rfl⟩
  · exact .inr ⟨.inr rfl, ‹_›, rfl⟩
  · exact .inl rfl

/-- From a state, a loop makes moves, ends, and leaves a state.  The body may be anything. -/
inductive Goes (f : Frame) (body : Run Outcome) :
    Cursor → RunState → List Move → Ending → RunState → Prop where
  /-- The loop is cancelled. -/
  | cancelled {c : Cursor} {st : RunState} (raised : st.machine.signals.isRaised f.cancel = true) :
      Goes f body c st [] .cancelled st
  /-- The loop ends before its body. -/
  | ended {c : Cursor} {st st' : RunState} {o : Outcome}
      (quiet : st.machine.signals.isRaised f.cancel = false)
      (opened : (opens f c).run st = (some o, st')) :
      Goes f body c st (asksBefore f c st) (.finished o) st'
  /-- The loop ends after its body. -/
  | last {c : Cursor} {st st₁ st₂ st' : RunState} {o o' : Outcome}
      (quiet : st.machine.signals.isRaised f.cancel = false)
      (opened : (opens f c).run st = (none, st₁)) (inside : body.run st₁ = (o, st₂))
      (closed : (closes f c o).run st₂ = (.done o', st')) :
      Goes f body c st (asksBefore f c st ++ .enters st₁ o :: asksAfter f c o st₂) (.finished o') st'
  /-- The loop goes on after its body. -/
  | next {c c' : Cursor} {st st₁ st₂ st₃ st' : RunState} {o : Outcome} {moves : List Move}
      {ending : Ending} (quiet : st.machine.signals.isRaised f.cancel = false)
      (opened : (opens f c).run st = (none, st₁)) (inside : body.run st₁ = (o, st₂))
      (closed : (closes f c o).run st₂ = (.next c', st₃))
      (others : Goes f body c' st₃ moves ending st') :
      Goes f body c st (asksBefore f c st ++ .enters st₁ o :: asksAfter f c o st₂ ++ moves) ending st'

variable {f : Frame} {body : Run Outcome} {c : Cursor} {st st' : RunState} {moves : List Move}
  {ending : Ending}

/-- A loop that is cancelled has found its signal raised. -/
theorem Goes.raised (h : Goes f body c st moves ending st') :
    ending = .cancelled → st'.machine.signals.isRaised f.cancel = true := by
  induction h with
  | cancelled raised => exact fun _ => raised
  | ended _ _ => nofun
  | last _ _ _ _ => nofun
  | next _ _ _ _ _ ih => exact ih

/-- A course is what the interpreter runs. -/
theorem Goes.sound (h : Goes f body c st moves ending st') :
    (cycle f body c.room c).run st = (ending.outcome, st') := by
  induction h with
  | cancelled raised => exact cycle_of_raised _ raised
  | ended quiet opened => exact cycle_of_over quiet opened
  | last quiet opened inside closed =>
      rw [cycle_of_entered quiet opened inside closed]
      rfl
  | next quiet opened inside closed _ ih => rw [cycle_of_entered quiet opened inside closed, rest, ih]

/-- Every loop has a course: each round leaves fewer iterations below the limit. -/
theorem exists_goes (f : Frame) (body : Run Outcome) (n : Nat) :
    ∀ {c : Cursor}, c.room = n → ∀ st, ∃ moves ending st', Goes f body c st moves ending st' := by
  induction n using Nat.strongRecOn with
  | _ n ih =>
      intro c room st
      cases raised : st.machine.signals.isRaised f.cancel with
      | true => exact ⟨_, _, _, .cancelled raised⟩
      | false =>
          rcases opened : (opens f c).run st with ⟨_ | o, st₁⟩
          · rcases inside : body.run st₁ with ⟨o, st₂⟩
            rcases closed : (closes f c o).run st₂ with ⟨c' | o', st₃⟩
            · obtain rfl := eq_next_of_closes closed
              have fewer := Cursor.room_next (lt_limit_of_opens opened)
              obtain ⟨moves, ending, st', others⟩ := ih c.next.room (by omega) rfl st₃
              exact ⟨_, _, _, .next raised opened inside closed others⟩
            · exact ⟨_, _, _, .last raised opened inside closed⟩
          · exact ⟨_, _, _, .ended raised opened⟩

/-! ## Entries -/

/-- The entry into the body that a move is. -/
def Move.entry? : Move → Option (RunState × Outcome)
  | .asks _ => none
  | .enters st o => some (st, o)

/-- The entries into the body: the states in which it is entered, and how it ends. -/
def entries (moves : List Move) : List (RunState × Outcome) := moves.filterMap Move.entry?

theorem entries_asksBefore (f : Frame) (c : Cursor) (st : RunState) : entries (asksBefore f c st) = [] := by
  rcases asksBefore_cases f c st with asks | ⟨-, asks⟩ <;> rw [asks] <;> rfl

theorem entries_asksAfter (f : Frame) (c : Cursor) (o : Outcome) (st : RunState) :
    entries (asksAfter f c o st) = [] := by
  rcases asksAfter_cases f c o st with asks | ⟨-, -, asks⟩ <;> rw [asks] <;> rfl

/-- The body is entered once in a round. -/
theorem entries_round (f : Frame) (c : Cursor) (o : Outcome) (st st₁ st₂ : RunState) (moves : List Move) :
    entries (asksBefore f c st ++ .enters st₁ o :: asksAfter f c o st₂ ++ moves) =
      (st₁, o) :: entries moves := by
  have before := entries_asksBefore f c st
  have after := entries_asksAfter f c o st₂
  unfold entries at *
  simp [Move.entry?, before, after]

/-- The loop a number of iterations further. -/
def ahead (c : Cursor) (i : Nat) : Cursor := { c with iteration := c.iteration + i }

theorem ahead_zero (c : Cursor) : ahead c 0 = c := rfl

theorem ahead_next (c : Cursor) (i : Nat) : ahead c.next i = ahead c (i + 1) := by
  simp only [ahead, Cursor.next, Nat.add_assoc, Nat.add_comm 1]

/-- **Each entry follows on the publication of its own variables**, and there is room for it below the
limit. -/
theorem Goes.entered (h : Goes f body c st moves ending st') : ∀ i s o,
    (entries moves)[i]? = some (s, o) → i < c.room ∧ Shows (ahead c i) s := by
  -- the first entry of a round, whose body the loop has opened
  have first {c : Cursor} {st st₁ : RunState} (opened : (opens f c).run st = (none, st₁)) :
      0 < c.room ∧ Shows (ahead c 0) st₁ := by
    obtain ⟨below, -, shown⟩ := opens_none opened
    rw [ahead_zero]
    exact ⟨Nat.sub_pos_of_lt below, shown⟩
  induction h with
  | cancelled _ =>
      intro i s o entry
      cases entry
  | ended _ _ =>
      intro i s o entry
      rw [entries_asksBefore] at entry
      cases entry
  | @last c st st₁ st₂ st' o o' _ opened _ _ =>
      have once := entries_round f c o st st₁ st₂ []
      rw [List.append_nil] at once
      intro i s o' entry
      rw [once] at entry
      cases i with
      | zero =>
          cases entry
          exact first opened
      | succ i => cases entry
  | @next c c' st st₁ st₂ st₃ st' o moves ending _ opened _ closed _ ih =>
      obtain ⟨-, rfl, -⟩ := closes_next closed
      intro i s o' entry
      rw [entries_round] at entry
      cases i with
      | zero =>
          cases entry
          exact first opened
      | succ i =>
          have fewer := Cursor.room_next (lt_limit_of_opens opened)
          obtain ⟨room, shown⟩ := ih i s o' entry
          rw [ahead_next] at shown
          exact ⟨by omega, shown⟩

/-- The body is entered at most as often as there is room. -/
theorem Goes.length_entries_le (h : Goes f body c st moves ending st') :
    (entries moves).length ≤ c.room := by
  by_contra more
  have entry := List.getElem?_eq_getElem (Nat.lt_of_not_le more)
  exact absurd (h.entered c.room _ _ entry).1 (Nat.lt_irrefl _)

/-! ## Early ends -/

/-- How a move ends the loop, if it does. -/
def Move.ends? : Move → Option Outcome
  | .asks (.error e) => some (.error e)
  | .asks (.ok _) => none
  | .enters _ .success | .enters _ .continue_ => none
  | .enters _ .break_ => some .success
  | .enters _ o => some o

/-- A question after which the body is entered does not end the loop. -/
theorem ends?_asksBefore (opened : (opens f c).run st = (none, st')) :
    ∀ x ∈ asksBefore f c st, x.ends? = none := by
  obtain ⟨-, answer, -⟩ := opens_none opened
  intro x mem
  rcases asksBefore_cases f c st with none | ⟨mode, asked⟩
  · rw [none] at mem
    cases mem
  · rw [asked, answer mode] at mem
    obtain rfl := List.mem_singleton.mp mem
    rfl

/-- No move of a round ends the loop, if it goes on. -/
theorem ends?_round {o : Outcome} {c' : Cursor} {st₁ st₂ st₃ : RunState}
    (opened : (opens f c).run st = (none, st₁)) (closed : (closes f c o).run st₂ = (.next c', st₃)) :
    ∀ x ∈ asksBefore f c st ++ .enters st₁ o :: asksAfter f c o st₂, x.ends? = none := by
  obtain ⟨fine, -, answer⟩ := closes_next closed
  intro x mem
  rcases List.mem_append.mp mem with mem | mem
  · exact ends?_asksBefore opened x mem
  rcases List.mem_cons.mp mem with rfl | mem
  · rcases fine with rfl | rfl <;> rfl
  · rcases asksAfter_cases f c o st₂ with none | ⟨-, mode, asked⟩
    · rw [none] at mem
      cases mem
    · rw [asked, answer mode] at mem
      obtain rfl := List.mem_singleton.mp mem
      rfl

/-- A list of one item has one place. -/
theorem eq_of_singleton_eq_append_cons {α : Type} {x y : α} {before after : List α}
    (split : [y] = before ++ x :: after) : x = y ∧ after = [] := by
  rcases List.append_eq_singleton_iff.mp split.symm with ⟨-, rest⟩ | ⟨-, nothing⟩
  · exact List.cons.inj rest
  · cases nothing

/-- A question that ends the loop before the body is the last move, and the loop ends as it says. -/
theorem early_of_opens {o o' : Outcome} {before after : List Move} {x : Move}
    (opened : (opens f c).run st = (some o, st')) (split : asksBefore f c st = before ++ x :: after)
    (ends : x.ends? = some o') : after = [] ∧ o = o' := by
  rcases asksBefore_cases f c st with none | ⟨mode, asked⟩
  · simp [none] at split
  rw [asked] at split
  obtain ⟨rfl, rfl⟩ := eq_of_singleton_eq_append_cons split
  rcases opens_some opened with ⟨-, other, -⟩ | ⟨-, other, -⟩ | ⟨-, answered⟩
  · simp [mode] at other
  · simp [mode] at other
  · rcases answer : ((ask f c).run st).1 with e | _ <;> rw [answer] at answered ends <;> cases ends
    exact ⟨rfl, answered⟩

/-- A body, or a question after it, that ends the loop is the last move, and the loop ends as it says. -/
theorem early_of_closes {o o' o'' : Outcome} {before after : List Move} {x : Move} {st₁ : RunState}
    (closed : (closes f c o).run st = (.done o', st'))
    (split : .enters st₁ o :: asksAfter f c o st = before ++ x :: after)
    (ends : x.ends? = some o'') : after = [] ∧ o' = o'' := by
  cases before with
  -- the body
  | nil =>
      obtain ⟨rfl, rfl⟩ := List.cons.inj split
      have left : ¬(o = .success ∨ o = .continue_) := by
        rintro (rfl | rfl) <;> cases ends
      refine ⟨(asksAfter_cases f c o st).resolve_right fun h => left h.1, ?_⟩
      rcases closes_done closed with ⟨rfl, rfl⟩ | ⟨⟨e, rfl⟩ | ⟨v, rfl⟩, rfl⟩ | ⟨fine, -⟩
      · exact Option.some.inj ends
      · exact Option.some.inj ends
      · exact Option.some.inj ends
      · exact absurd fine left
  -- the question after it
  | cons y before =>
      obtain ⟨-, split⟩ := List.cons.inj split
      rcases asksAfter_cases f c o st with none | ⟨fine, -, asked⟩
      · simp [none] at split
      rw [asked] at split
      obtain ⟨rfl, rfl⟩ := eq_of_singleton_eq_append_cons split
      rcases closes_done closed with ⟨rfl, -⟩ | ⟨⟨e, rfl⟩ | ⟨v, rfl⟩, -⟩ | ⟨-, -, answered⟩
      · simp at fine
      · simp at fine
      · simp at fine
      · rcases answer : ((ask f c.next).run st).1 with e | _ <;> rw [answer] at answered ends <;>
          cases ends
        exact ⟨rfl, answered⟩

/-- **A move that ends the loop is its last**, and the loop ends as the move says. -/
theorem Goes.early (h : Goes f body c st moves ending st') : ∀ before x after o,
    moves = before ++ x :: after → x.ends? = some o → after = [] ∧ ending = .finished o := by
  induction h with
  | cancelled _ =>
      intro before x after o split
      cases before <;> cases split
  | ended _ opened =>
      intro before x after o split ends
      obtain ⟨nothing, rfl⟩ := early_of_opens opened split ends
      exact ⟨nothing, rfl⟩
  | last _ opened _ closed =>
      intro before x after o split ends
      rcases cases_of_append_eq_append_cons split with ⟨rest, first, -⟩ | ⟨rest, -, split⟩
      · have none := ends?_asksBefore opened x (by rw [first]; simp)
        rw [ends] at none
        cases none
      · obtain ⟨nothing, rfl⟩ := early_of_closes closed split ends
        exact ⟨nothing, rfl⟩
  | next _ opened _ closed _ ih =>
      intro before x after o split ends
      rcases cases_of_append_eq_append_cons split with ⟨rest, round, -⟩ | ⟨rest, -, others⟩
      · have none := ends?_round opened closed x (by rw [round]; simp)
        rw [ends] at none
        cases none
      · exact ih rest x after o others ends

/-! ## Even courses -/

/-- What a move is, whatever the state. -/
inductive Mark where
  /-- A question answered with yes. -/
  | yes
  /-- A question answered with no. -/
  | no
  /-- A question that failed. -/
  | failed
  /-- The body. -/
  | body
deriving DecidableEq

/-- The mark of a move. -/
def Move.mark : Move → Mark
  | .asks (.ok true) => .yes
  | .asks (.ok false) => .no
  | .asks (.error _) => .failed
  | .enters _ _ => .body

/-- A round after which a loop goes on. -/
def round : LoopMode → List Mark
  | .while_ => [.yes, .body]
  | .until_ => [.body, .no]
  | .times | .forEach | .forever => [.body]

/-- A number of such rounds. -/
def rounds (mode : LoopMode) (k : Nat) : List Mark := (List.replicate k (round mode)).flatten

theorem rounds_succ (mode : LoopMode) (k : Nat) : rounds mode (k + 1) = round mode ++ rounds mode k := by
  simp [rounds, List.replicate_succ]

/-- How a loop ends after a number of rounds, and what it does last, if no move ends it early. -/
inductive Ends (c : Cursor) : Nat → List Mark → Ending → Prop where
  /-- It is cancelled. -/
  | cancelled {k : Nat} (within : k ≤ c.room) : Ends c k [] .cancelled
  /-- Its count or its list is at an end. -/
  | counted (mode : c.mode = .times ∨ c.mode = .forEach) : Ends c c.room [] (.finished .success)
  /-- The answer before the body is no. -/
  | no {k : Nat} (within : k ≤ c.room) (mode : c.mode = .while_) : Ends c k [.no] (.finished .success)
  /-- The answer before the body is yes, and the loop is at its limit. -/
  | yesAgain (mode : c.mode = .while_) : Ends c c.room [.yes] (.finished (overrun c))
  /-- The answer after the body is yes. -/
  | yes {k : Nat} (below : k < c.room) (mode : c.mode = .until_) : Ends c k [.body, .yes] (.finished .success)
  /-- It is at its limit without an end of its own. -/
  | overrun (mode : c.mode = .until_ ∨ c.mode = .forever) : Ends c c.room [] (.finished (overrun c))

/-- The ends of a loop one round further are its own one round later. -/
theorem Ends.later {k : Nat} {tail : List Mark} (h : Ends c.next k tail ending)
    (below : c.iteration < c.limit) : Ends c (k + 1) tail ending := by
  have room := Cursor.room_next below
  cases h with
  | cancelled within => exact .cancelled (by omega)
  | counted mode => exact room ▸ .counted mode
  | no within mode => exact .no (by omega) mode
  | yesAgain mode => exact room ▸ .yesAgain mode
  | yes below mode => exact .yes (by omega) mode
  | overrun mode => exact room ▸ .overrun mode

/-- The marks of a round after which a loop goes on. -/
theorem marks_round {o : Outcome} {c' : Cursor} {st₁ st₂ st₃ : RunState}
    (opened : (opens f c).run st = (none, st₁)) (closed : (closes f c o).run st₂ = (.next c', st₃)) :
    (asksBefore f c st ++ .enters st₁ o :: asksAfter f c o st₂).map Move.mark = round c.mode := by
  obtain ⟨-, before, -⟩ := opens_none opened
  obtain ⟨fine, -, after⟩ := closes_next closed
  cases mode : c.mode with
  | while_ => simp [asksBefore, asksAfter, mode, before mode, Move.mark, round]
  | until_ => rcases fine with rfl | rfl <;> simp [asksBefore, asksAfter, mode, after mode, Move.mark, round]
  | times | forEach | forever => simp [asksBefore, asksAfter, mode, Move.mark, round]

/-- A loop that ends before its body is at its limit or has been answered. -/
theorem ends_of_opens {o : Outcome} (opened : (opens f c).run st = (some o, st'))
    (calm : ∀ x ∈ asksBefore f c st, x.ends? = none) :
    Ends c 0 ((asksBefore f c st).map Move.mark) (.finished o) := by
  rcases opens_some opened with ⟨full, mode, rfl⟩ | ⟨full, mode, rfl⟩ | ⟨mode, answered⟩
  · have silent : asksBefore f c st = [] := by rcases mode with mode | mode <;> simp [asksBefore, mode]
    rw [silent]
    exact full ▸ .counted mode
  · have silent : asksBefore f c st = [] := by rcases mode with mode | mode <;> simp [asksBefore, mode]
    rw [silent]
    exact full ▸ .overrun mode
  have asked : asksBefore f c st = [.asks ((ask f c).run st).1] := by simp [asksBefore, mode]
  rw [asked] at calm ⊢
  have answers := calm _ (List.mem_singleton_self _)
  rcases answer : ((ask f c).run st).1 with e | _ | _ <;> rw [answer] at answered answers
  · cases answers
  · obtain rfl : o = .success := answered
    exact .no (Nat.zero_le _) mode
  · obtain ⟨full, rfl⟩ := answered
    exact full ▸ .yesAgain mode

/-- A loop that ends after a body that has come to its end has been answered. -/
theorem ends_of_closes {o o' : Outcome} {st₁ : RunState} (room : 0 < c.room)
    (closed : (closes f c o).run st = (.done o', st'))
    (calm : ∀ x ∈ Move.enters st₁ o :: asksAfter f c o st, x.ends? = none) :
    c.mode = .until_ ∧
      Ends c 0 ((Move.enters st₁ o :: asksAfter f c o st).map Move.mark) (.finished o') := by
  have ends : (Move.enters st₁ o).ends? = none := calm _ (List.mem_cons_self ..)
  rcases closes_done closed with ⟨rfl, -⟩ | ⟨⟨e, rfl⟩ | ⟨v, rfl⟩, -⟩ | ⟨fine, mode, answered⟩
  · cases ends
  · cases ends
  · cases ends
  have asked : asksAfter f c o st = [.asks ((ask f c.next).run st).1] := by
    rcases fine with rfl | rfl <;> simp [asksAfter, mode]
  rw [asked] at calm ⊢
  have answers : (Move.asks ((ask f c.next).run st).1).ends? = none := calm _ (by simp)
  rcases answer : ((ask f c.next).run st).1 with e | _ | _ <;> rw [answer] at answered answers
  · cases answers
  · cases answered
  · obtain rfl : o' = .success := answered
    exact ⟨mode, .yes room mode⟩

/-- **A loop that no move ends early** makes rounds that are alike until it ends. -/
theorem Goes.calm (h : Goes f body c st moves ending st') : (∀ x ∈ moves, x.ends? = none) →
    ∃ k tail, moves.map Move.mark = rounds c.mode k ++ tail ∧ Ends c k tail ending := by
  induction h with
  | cancelled _ => exact fun _ => ⟨0, [], rfl, .cancelled (Nat.zero_le _)⟩
  | ended _ opened => exact fun calm => ⟨0, _, rfl, ends_of_opens opened calm⟩
  | @last c st st₁ st₂ st' o o' _ opened _ closed =>
      intro calm
      have room := Nat.sub_pos_of_lt (lt_limit_of_opens opened)
      obtain ⟨mode, ends⟩ := ends_of_closes room closed fun x mem => calm x (List.mem_append_right _ mem)
      have silent : asksBefore f c st = [] := by simp [asksBefore, mode]
      exact ⟨0, _, by rw [silent]; rfl, ends⟩
  | @next c c' st st₁ st₂ st₃ st' o moves ending _ opened _ closed _ ih =>
      intro calm
      obtain ⟨-, rfl, -⟩ := closes_next closed
      obtain ⟨k, tail, marks, ends⟩ := ih fun x mem => calm x (List.mem_append_right _ mem)
      refine ⟨k + 1, tail, ?_, ends.later (lt_limit_of_opens opened)⟩
      rw [List.map_append, marks_round opened closed, marks, rounds_succ, List.append_assoc]
      rfl

end Loop

end Blockwork
