import Blockwork.Interpreter

/-!
# One iteration after another

A loop at once counts down the iterations that are left below its limit, and a loop over ticks looks
at its limit each time.  `Loop.cycle_eq_iterate` makes the first into the second.

An iteration has two halves, with the body in between: `Loop.opens` decides whether the body is
entered and publishes the loop variables, `Loop.closes` decides what follows.  What a loop does
outside its body is in these halves (`Loop.iterate_eq`), so a proof about the body alone need not look
at the modes of loops.  What each half can come to is said once (`Loop.opens_some`, `opens_none`,
`closes_done`, `closes_next`), and proofs about how loops end start from there.
-/

namespace Blockwork

/-- Whatever a run yields has a property. -/
def Run.Yields {α : Type} (P : α → Prop) (r : Run α) : Prop := ∀ st, P (r.run st).1

theorem Run.Yields.bind {α β : Type} {P : β → Prop} {r : Run α} {k : α → Run β}
    (h : ∀ x, Yields P (k x)) : Yields P (r >>= k) :=
  fun st => h (r.run st).1 (r.run st).2

/-- A run whose first part is known. -/
theorem Run.bind_eq {α β : Type} {r : Run α} {k : α → Run β} {st st' : RunState} {x : α}
    (h : r.run st = (x, st')) : (r >>= k).run st = (k x).run st' := by
  show (k (r.run st).1).run (r.run st).2 = _
  rw [h]

theorem Binary.toNat_saturate_le (cap : Nat) (x : Float) : (saturate 0 cap x).toNat ≤ cap := by
  unfold saturate
  split
  · exact Nat.zero_le cap
  · split
    · exact Nat.zero_le cap
    · exact Nat.le_refl cap
  · dsimp only
    omega

/-- A loop starts with no iteration made, and with what its mode asks for: its count, its list or its
question. -/
theorem Cursor.start_cases {s : Scene} {limits : Limits} {r : Repeat} {c : Cursor}
    (started : start s limits r = .ok c) :
    c.iteration = 0 ∧ c.cap = capOf limits r ∧ r.mode = some c.mode ∧
      match c.mode with
      | .times => c.condition = none ∧ ∃ n, s.number r.count "loop count" = .ok n ∧
          c.bound = (Binary.saturate 0 (capOf limits r) n).toNat
      | .forEach => c.condition = none ∧ ∃ d, s.require r.list "loop list" = .ok d ∧
          c.items = (d.toList.take (capOf limits r)).toArray
      | .while_ | .until_ => c.condition = r.condition
      | .forever => c.condition = none := by
  unfold start at started
  cases mode : r.mode with
  | none =>
      rw [mode] at started
      cases started
  | some mode' =>
      rw [mode] at started
      cases mode' with
      | times =>
          cases count : s.number r.count "loop count" with
          | error e =>
              rw [count] at started
              cases started
          | ok n =>
              rw [count] at started
              cases started
              exact ⟨rfl, rfl, rfl, rfl, n, rfl, rfl⟩
      | forEach =>
          cases list : s.require r.list "loop list" with
          | error e =>
              rw [list] at started
              cases started
          | ok d =>
              rw [list] at started
              cases started
              exact ⟨rfl, rfl, rfl, rfl, d, rfl, rfl⟩
      | while_ | until_ =>
          cases question : r.condition with
          | none =>
              rw [question] at started
              cases started
          | some q =>
              rw [question] at started
              cases started
              exact ⟨rfl, rfl, rfl, rfl⟩
      | forever =>
          cases started
          exact ⟨rfl, rfl, rfl, rfl⟩

/-- A loop starts with no iteration made and a limit within its cap. -/
theorem Cursor.limit_start {s : Scene} {limits : Limits} {r : Repeat} {c : Cursor}
    (started : start s limits r = .ok c) : c.iteration = 0 ∧ c.limit ≤ capOf limits r := by
  obtain ⟨zero, cap, -, given⟩ := start_cases started
  refine ⟨zero, ?_⟩
  unfold limit
  cases mode : c.mode with
  | times =>
      rw [mode] at given
      obtain ⟨-, n, -, bound⟩ := given
      exact bound ▸ Binary.toNat_saturate_le _ n
  | forEach =>
      rw [mode] at given
      obtain ⟨-, d, -, items⟩ := given
      rw [items]
      exact List.length_take_le _ _
  | while_ | until_ | forever => exact Nat.le_of_eq cap

/-- An iteration takes up one of those that may still start. -/
theorem Cursor.room_next {c : Cursor} (below : c.iteration < c.limit) : c.next.room + 1 = c.room := by
  show c.limit - (c.iteration + 1) + 1 = c.limit - c.iteration
  omega

/-- The outcome of a step: a loop that goes on has succeeded so far. -/
def Step.outcome : Step → Outcome
  | .next _ => .success
  | .done o => o

namespace Loop

open Run (Yields)

variable {f : Frame} {body : Run Outcome}

/-- The loop that goes on is the loop one iteration further. -/
theorem yields_proceed (c : Cursor) :
    Yields (fun step => ∀ c', step = .next c' → c' = c.next) (proceed f c) := by
  unfold proceed
  split
  · refine Yields.bind fun answer st c' goesOn => ?_
    split at goesOn
    · cases goesOn
    · cases goesOn
      rfl
    · cases goesOn
  · rintro _ _ ⟨⟩
    rfl

theorem yields_step (c : Cursor) :
    Yields (fun step => ∀ c', step = .next c' → c' = c.next) (step f body c) := by
  have enters : Yields (fun step => ∀ c', step = .next c' → c' = c.next) (enter f body c) := by
    refine Yields.bind fun _ => Yields.bind fun outcome => ?_
    split
    · exact yields_proceed c
    · exact yields_proceed c
    · rintro _ _ ⟨⟩
    · rintro _ _ ⟨⟩
  unfold step
  split
  · refine Yields.bind fun answer => ?_
    split
    · exact enters
    · rintro _ _ ⟨⟩
    · rintro _ _ ⟨⟩
  · exact enters

/-- What is left of a loop after an iteration. -/
def rest (f : Frame) (body : Run Outcome) : Step → Run Outcome
  | .done o => pure o
  | .next c => cycle f body c.room c

/-- A loop below its limit goes on with one iteration less ahead of it. -/
theorem room_of_iterate {c c' : Cursor} {st st' : RunState}
    (ran : (iterate f body c).run st = (.next c', st')) : c.room = c'.room + 1 := by
  unfold iterate at ran
  split at ran
  · cases ran
  · next n room =>
    have goesOn : ((step f body c).run st).1 = .next c' := by rw [ran]
    obtain rfl := yields_step c st c' goesOn
    unfold Cursor.room Cursor.limit Cursor.next at *
    dsimp only at *
    omega

/-- A loop that is not cancelled makes an iteration, and then what is left of it. -/
theorem cycle_eq_iterate {c : Cursor} {st : RunState}
    (live : st.machine.signals.isRaised f.cancel = false) :
    (cycle f body c.room c).run st = (iterate f body c >>= rest f body).run st := by
  have quiet {α : Type} (k : Bool → Run α) :
      (Run.isRaised f.cancel >>= k).run st = (k false).run st := by
    show (k (st.machine.signals.isRaised f.cancel)).run st = _
    rw [live]
  have iterated (n : Nat) (room : c.room = n) : (cycle f body n c).run st =
      (iterate f body c >>= rest f body).run st := by
    cases n with
    | zero =>
        rw [cycle, quiet, iterate, room]
        rfl
    | succ n =>
        rw [cycle, quiet]
        show _ = (rest f body ((iterate f body c).run st).1).run ((iterate f body c).run st).2
        cases ran : (iterate f body c).run st with
        | mk step st' =>
            have stepped : (Loop.step f body c).run st = (step, st') := by
              rw [← ran, iterate, room]
            show (match ((Loop.step f body c).run st).1 with
              | .done o => pure o
              | .next c => cycle f body n c : Run Outcome).run ((Loop.step f body c).run st).2 = _
            rw [stepped]
            cases step with
            | done o => rfl
            | next c' =>
                have room' := room_of_iterate ran
                rw [room, Nat.add_right_cancel_iff] at room'
                subst room'
                rfl
  exact iterated c.room rfl

/-! ## The two halves of an iteration -/

/-- Up to the body: nothing if the body is entered, and otherwise the outcome of the loop. -/
def opens (f : Frame) (c : Cursor) : Run (Option Outcome) :=
  match c.room with
  | 0 => do pure (some (← close f c))
  | _ + 1 =>
    match c.mode with
    | .while_ => do
      match ← ask f c with
      | .ok true => do
        publish c
        pure none
      | .ok false => pure (some .success)
      | .error e => pure (some (.error e))
    | _ => do
      publish c
      pure none

/-- From the outcome of the body on. -/
def closes (f : Frame) (c : Cursor) : Outcome → Run Step
  | .success | .continue_ => proceed f c
  | .break_ => pure (.done .success)
  | o => pure (.done o)

/-- An iteration is its two halves with the body in between. -/
def around (f : Frame) (body : Run Outcome) (c : Cursor) : Option Outcome → Run Step
  | some o => pure (.done o)
  | none => body >>= closes f c

theorem enter_eq (f : Frame) (body : Run Outcome) (c : Cursor) :
    enter f body c = publish c >>= fun _ => around f body c none := by
  unfold enter around closes
  congr 1

theorem iterate_eq (f : Frame) (body : Run Outcome) (c : Cursor) :
    iterate f body c = opens f c >>= around f body c := by
  unfold iterate opens
  cases c.room with
  | zero => rfl
  | succ n =>
      simp only [step, enter_eq]
      cases c.mode with
      | while_ =>
          dsimp only
          rw [bind_assoc]
          refine congrArg (ask f c >>= ·) (funext fun answer => ?_)
          rcases answer with e | _ | _ <;> rfl
      | _ => rfl

/-- An iteration ends before its body, or it goes through its body. -/
theorem iterate_cases {f : Frame} {body : Run Outcome} {c : Cursor} {step : Step}
    {st st' : RunState} (ran : (iterate f body c).run st = (step, st')) :
    (∃ o, (opens f c).run st = (some o, st') ∧ step = .done o) ∨
      ∃ o st₁ st₂, (opens f c).run st = (none, st₁) ∧ body.run st₁ = (o, st₂) ∧
        (closes f c o).run st₂ = (step, st') := by
  rw [iterate_eq] at ran
  rcases opened : (opens f c).run st with ⟨_ | o, st₁⟩
  · rw [Run.bind_eq opened] at ran
    exact .inr ⟨(body.run st₁).1, st₁, (body.run st₁).2, rfl, rfl, ran⟩
  · rw [Run.bind_eq opened] at ran
    cases ran
    exact .inl ⟨o, rfl, rfl⟩

/-- The body is entered below the limit only. -/
theorem lt_limit_of_opens {f : Frame} {c : Cursor} {st st' : RunState}
    (opened : (opens f c).run st = (none, st')) : c.iteration < c.limit := by
  unfold opens at opened
  split at opened
  · cases opened
  · next n room =>
    unfold Cursor.room at room
    omega

/-- A loop that goes on is one iteration further. -/
theorem eq_next_of_closes {f : Frame} {c c' : Cursor} {o : Outcome} {st st' : RunState}
    (closed : (closes f c o).run st = (.next c', st')) : c' = c.next := by
  unfold closes at closed
  split at closed
  · exact yields_proceed c st c' (congrArg Prod.fst closed)
  · exact yields_proceed c st c' (congrArg Prod.fst closed)
  · cases closed
  · cases closed

/-! ## What the halves come to -/

variable {c : Cursor} {st st' : RunState}

/-- What a loop that does not enter its body comes to: it is at its limit, or its question ends it. -/
theorem opens_some {o : Outcome} (opened : (opens f c).run st = (some o, st')) :
    (c.room = 0 ∧ (c.mode = .times ∨ c.mode = .forEach) ∧ o = .success) ∨
    (c.room = 0 ∧ (c.mode = .until_ ∨ c.mode = .forever) ∧ o = overrun c) ∨
    (c.mode = .while_ ∧ match ((ask f c).run st).1 with
      | .ok true => c.room = 0 ∧ o = overrun c
      | .ok false => o = .success
      | .error e => o = .error e) := by
  rcases asked : (ask f c).run st with ⟨answer, s⟩
  unfold opens close at opened
  split at opened
  · next room =>
    cases mode : c.mode with
    | while_ =>
        rw [mode] at opened
        rcases answer with e | _ | _ <;>
          simp only [bind_assoc, Run.bind_eq asked] at opened <;> cases opened <;> simp [room]
    | times | forEach | until_ | forever =>
        rw [mode] at opened
        cases opened
        simp [room]
  · split at opened
    · next mode =>
      rcases answer with e | _ | _ <;> rw [Run.bind_eq asked] at opened <;> cases opened <;> simp [mode]
    · cases opened

/-- A state in which the variables of an iteration have just been published. -/
def Shows (c : Cursor) (st : RunState) : Prop := ∃ before, ((publish c).run before).2 = st

/-- A body that is entered is entered below the limit, after a question that was answered with yes if
there is one, and with the variables of the loop just published. -/
theorem opens_none (opened : (opens f c).run st = (none, st')) :
    c.iteration < c.limit ∧ (c.mode = .while_ → ((ask f c).run st).1 = .ok true) ∧ Shows c st' := by
  refine ⟨lt_limit_of_opens opened, ?_⟩
  have shows {s : RunState} (h : (publish c >>= fun _ => pure none : Run (Option Outcome)).run s =
      (none, st')) : Shows c st' := by
    rcases published : (publish c).run s with ⟨⟨⟩, s'⟩
    rw [Run.bind_eq published] at h
    cases h
    exact ⟨s, by rw [published]⟩
  rcases asked : (ask f c).run st with ⟨answer, s⟩
  unfold opens at opened
  split at opened
  · cases opened
  · split at opened
    · rcases answer with e | _ | _ <;> rw [Run.bind_eq asked] at opened
      · cases opened
      · cases opened
      · exact ⟨fun _ => rfl, shows opened⟩
    · next other => exact ⟨fun mode => absurd mode other, shows opened⟩

/-- What ends a loop after its body: the body, or the question that is asked then. -/
theorem closes_done {o o' : Outcome} (closed : (closes f c o).run st = (.done o', st')) :
    (o = .break_ ∧ o' = .success) ∨ (((∃ e, o = .error e) ∨ ∃ v, o = .return_ v) ∧ o' = o) ∨
    ((o = .success ∨ o = .continue_) ∧ c.mode = .until_ ∧ match ((ask f c.next).run st).1 with
      | .ok true => o' = .success
      | .ok false => False
      | .error e => o' = .error e) := by
  have proceeds (closed : (proceed f c).run st = (.done o', st')) :
      c.mode = .until_ ∧ match ((ask f c.next).run st).1 with
        | .ok true => o' = .success
        | .ok false => False
        | .error e => o' = .error e := by
    rcases asked : (ask f c.next).run st with ⟨answer, s⟩
    unfold proceed at closed
    split at closed
    · next mode =>
      rcases answer with e | _ | _ <;> rw [Run.bind_eq asked] at closed <;> cases closed <;> simp [mode]
    · cases closed
  cases o with
  | success => exact .inr (.inr ⟨.inl rfl, proceeds closed⟩)
  | continue_ => exact .inr (.inr ⟨.inr rfl, proceeds closed⟩)
  | break_ =>
      cases closed
      exact .inl ⟨rfl, rfl⟩
  | error e =>
      cases closed
      exact .inr (.inl ⟨.inl ⟨e, rfl⟩, rfl⟩)
  | return_ v =>
      cases closed
      exact .inr (.inl ⟨.inr ⟨v, rfl⟩, rfl⟩)

/-- A loop goes on after a body that has come to its end, and a question that was answered with no if there
is one. -/
theorem closes_next {o : Outcome} {c' : Cursor} (closed : (closes f c o).run st = (.next c', st')) :
    (o = .success ∨ o = .continue_) ∧ c' = c.next ∧
      (c.mode = .until_ → ((ask f c.next).run st).1 = .ok false) := by
  have proceeds (closed : (proceed f c).run st = (.next c', st')) :
      c.mode = .until_ → ((ask f c.next).run st).1 = .ok false := by
    rcases asked : (ask f c.next).run st with ⟨answer, s⟩
    unfold proceed at closed
    split at closed
    · rcases answer with e | _ | _ <;> rw [Run.bind_eq asked] at closed <;> cases closed
      exact fun _ => rfl
    · next other => exact fun mode => absurd mode other
  have next := eq_next_of_closes closed
  cases o with
  | success => exact ⟨.inl rfl, next, proceeds closed⟩
  | continue_ => exact ⟨.inr rfl, next, proceeds closed⟩
  | break_ | error _ | return_ _ => cases closed

/-- What a loop comes to: a failure to start, a loop in the agenda, or its end. -/
theorem run_repeat (limits : Limits) (f : Frame) (r : Repeat) (children : List Block) (body : Run Outcome)
    (st : RunState) : (repeat_ limits f r children body).run st =
      match Cursor.start ⟨⟨f, st.scope⟩, st.machine.world⟩ limits r with
      | .error e => (.error e, st)
      | .ok c =>
        if r.isAsync then (spread f r.interval children c).run st
        else (cycle f body c.room c).run st := by
  show (match Cursor.start ⟨⟨f, st.scope⟩, st.machine.world⟩ limits r with
    | .error e => pure (.error e)
    | .ok c => if r.isAsync then spread f r.interval children c
      else cycle f body c.room c : Run Outcome).run st = _
  split
  · rfl
  · split <;> rfl

end Loop

end Blockwork
