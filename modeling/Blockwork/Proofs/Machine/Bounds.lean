import Blockwork.Proofs.Machine.Panics
import Blockwork.Proofs.Session.Posting
import Blockwork.Proofs.Session.Units

/-!
# Every unit of work ends within its caps

A unit of work is a list of siblings, a line, a delayed body or a poll of a loop.  Whatever the blocks,
the functions and the caps are, it ends, and it ends as the interpreter says (`Completes`).  On the way
calls are nested no deeper than the cap on calls, or than the frame that the unit starts in, and the
body of a loop is entered once at each count below the loop's cap (`Bounded`).

To end is not to return.  The magnitude limit is not looked at before a calculation needs it, and a negative
one makes the calculation panic.  Every unit returns exactly if the magnitude limit is not negative
(`units_complete`), and a unit that does not return is broken off where the panic is (`Machine.Breaks`).

## What is load-bearing

`Does.bounded` is an induction on derivations.  A loop in the middle carries the counts at which its
body has been entered, and the invariant of the induction is that these are the counts below the
cursor's own (`Doing.IsSane`).
-/

namespace Blockwork

open Interpreter

/-! ## Caps of loops -/

/-- The cap of a loop is a word if the general one is. -/
theorem Cursor.capOf_le_word {limits : Limits} (r : Repeat)
    (word : limits.maxIterations ≤ Limits.maxWord32) : capOf limits r ≤ Limits.maxWord32 := by
  unfold capOf
  split
  · next n _ =>
    exact Nat.le_of_lt_succ n.toNat_lt
  · exact word

/-! ## What deeds are within -/

/-- The frame that a deed is done in, or that the work it puts off will run in. -/
def Deed.frame? : Deed → Option Frame
  | .ran f _ _ | .called f => some f
  | .looped _ _ => none
  | .postponed _ d => some d.context.frame
  | .spread _ t => some t.context.frame

/-- Deeds of a run that starts in a frame keep within the caps. -/
structure Bounded (limits : Limits) (f : Frame) (deeds : List Deed) : Prop where
  /-- Calls are nested no deeper than the cap, or than the frame. -/
  depth : ∀ x ∈ deeds, ∀ g, x.frame? = some g → g.callDepth ≤ max f.callDepth limits.maxCallDepth
  /-- A body is entered at the counts from zero on, one after another, and not at the cap. -/
  loops : ∀ r counts, .looped r counts ∈ deeds →
    counts = List.range counts.length ∧ counts.length ≤ Cursor.capOf limits r
  /-- A loop that is handed over has all of this ahead of it. -/
  spread : ∀ r t, .spread r t ∈ deeds →
    t.cursor.iteration = 0 ∧ t.cursor.limit ≤ Cursor.capOf limits r

namespace Bounded

variable {limits : Limits} {f g : Frame} {deeds deeds' : List Deed}

theorem nil : Bounded limits f [] where
  depth _ h := absurd h List.not_mem_nil
  loops _ _ h := absurd h List.not_mem_nil
  spread _ _ h := absurd h List.not_mem_nil

theorem append (h : Bounded limits f deeds) (h' : Bounded limits f deeds') :
    Bounded limits f (deeds ++ deeds') where
  depth x hx := (List.mem_append.mp hx).elim (h.depth x) (h'.depth x)
  loops r counts hx := (List.mem_append.mp hx).elim (h.loops r counts) (h'.loops r counts)
  spread r t hx := (List.mem_append.mp hx).elim (h.spread r t) (h'.spread r t)

/-- What is within the caps from a frame is so from a frame that allows as much. -/
theorem mono (h : Bounded limits g deeds)
    (within : max g.callDepth limits.maxCallDepth ≤ max f.callDepth limits.maxCallDepth) :
    Bounded limits f deeds where
  depth x hx k hk := Nat.le_trans (h.depth x hx k hk) within
  loops := h.loops
  spread := h.spread

theorem looped {r : Repeat} {counts : List Nat} (ascending : counts = List.range counts.length)
    (few : counts.length ≤ Cursor.capOf limits r) : Bounded limits f [.looped r counts] where
  depth x hx k hk := by
    rw [List.mem_singleton.mp hx] at hk
    cases hk
  loops r' counts' hx := by
    cases List.mem_singleton.mp hx
    exact ⟨ascending, few⟩
  spread r t hx := by cases List.mem_singleton.mp hx

/-- A deed that is done as deep as the frame, or within the cap. -/
theorem single {x : Deed} (depth : ∀ k, x.frame? = some k →
      k.callDepth ≤ max f.callDepth limits.maxCallDepth)
    (loops : ∀ r counts, x ≠ .looped r counts)
    (spread : ∀ r t, x = .spread r t → t.cursor.iteration = 0 ∧ t.cursor.limit ≤ Cursor.capOf limits r) :
    Bounded limits f [x] where
  depth y hy := by
    rw [List.mem_singleton.mp hy]
    exact depth
  loops r counts hy := absurd (List.mem_singleton.mp hy).symm (loops r counts)
  spread r t hy := spread r t (List.mem_singleton.mp hy).symm

end Bounded

/-- A loop in the middle has been entered at the counts below its cursor's, and its limit is within
the cap. -/
def Doing.IsSane (limits : Limits) : Doing → Prop
  | .rounds r _ c counts =>
    counts = List.range c.iteration ∧ c.iteration ≤ c.limit ∧ c.limit ≤ Cursor.capOf limits r
  | _ => True

theorem Does.bounded {limits : Limits} {f : Frame} {doing : Doing} {st st' : RunState}
    {deeds : List Deed} {r : Outcome × Option Bool} (h : Does limits f doing st deeds r st')
    (sane : doing.IsSane limits) : Bounded limits f deeds := by
  induction h with
  | settled chose => exact .nil
  | postponed chose =>
      obtain ⟨-, rfl, -⟩ := made_of_choose chose
      exact .single (fun k hk => by cases hk; exact Nat.le_max_left _ _) (fun _ _ h => nomatch h)
        fun _ _ h => nomatch h
  | spread chose =>
      obtain ⟨s, c, handle, m, started, -, rfl, -⟩ := made_of_choose chose
      refine .single (fun k hk => by cases hk; exact Nat.le_max_left _ _) (fun _ _ h => nomatch h)
        fun _ _ h => ?_
      cases h
      exact Cursor.limit_start started
  | within chose inside ih =>
      obtain ⟨-, depth⟩ := made_of_choose chose
      exact (ih trivial).mono (depth ▸ Nat.le_refl _)
  | loop chose rounds ih =>
      obtain ⟨-, s, started⟩ := made_of_choose chose
      obtain ⟨first, within⟩ := Cursor.limit_start started
      exact ih ⟨by rw [first]; rfl, by rw [first]; exact Nat.zero_le _, within⟩
  | call chose calls ih => exact ih trivial
  | block inside ih =>
      refine (ih trivial).append (.single (fun k hk => ?_) (fun _ _ h => nomatch h) fun _ _ h => nomatch h)
      cases hk
      exact Nat.le_max_left _ _
  | nil => exact .nil
  | stop first failed ih => exact ih trivial
  | go first succeeded others ih ih' => exact (ih trivial).append (ih' trivial)
  | cancelled raised =>
      obtain ⟨rfl, below, within⟩ := sane
      exact .looped (by rw [List.length_range]) (by rw [List.length_range]; omega)
  | ended quiet opened =>
      obtain ⟨rfl, below, within⟩ := sane
      exact .looped (by rw [List.length_range]) (by rw [List.length_range]; omega)
  | last quiet opened inside closed ih =>
      obtain ⟨rfl, -, within⟩ := sane
      have below := Loop.lt_limit_of_opens opened
      rw [← List.range_succ]
      exact (ih trivial).append
        (.looped (by rw [List.length_range]) (by rw [List.length_range]; omega))
  | next quiet opened inside closed others ih ih' =>
      obtain ⟨rfl, -, within⟩ := sane
      have below := Loop.lt_limit_of_opens opened
      obtain rfl := Loop.eq_next_of_closes closed
      exact (ih trivial).append (ih' ⟨List.range_succ.symm, below, within⟩)
  | tooDeep full => exact .nil
  | refused room found => exact .nil
  | @entered f c st st₁ st' head b values deeds o o' room found inside left ih =>
      have deeper := callDepth_bindParameters ⟨f, st.scope⟩ head.parameters values
      have within : (bindParameters ⟨f, st.scope⟩ head.parameters values).frame.callDepth ≤
          limits.maxCallDepth := deeper ▸ room
      rw [← List.singleton_append]
      refine .append (.single (fun k hk => ?_) (fun _ _ h => nomatch h) fun _ _ h => nomatch h)
        ((ih trivial).mono (by omega))
      cases hk
      exact Nat.le_trans within (Nat.le_max_right _ _)

/-! ## Units of work -/

/-- Neither depths nor counts leave the words of thirty-two bits. -/
structure InWords (deeds : List Deed) : Prop where
  /-- No frame is too deep. -/
  depth : ∀ x ∈ deeds, ∀ g, x.frame? = some g → g.callDepth ≤ Limits.maxWord32
  /-- The count after an iteration is still a word. -/
  counts : ∀ r counts, .looped r counts ∈ deeds → ∀ i ∈ counts, i + 1 ≤ Limits.maxWord32

theorem Bounded.inWords {limits : Limits} {f : Frame} {deeds : List Deed}
    (h : Bounded limits f deeds) (depth : max f.callDepth limits.maxCallDepth ≤ Limits.maxWord32)
    (iterations : limits.maxIterations ≤ Limits.maxWord32) : InWords deeds where
  depth x hx g hg := Nat.le_trans (h.depth x hx g hg) depth
  counts r counts hx i hi := by
    obtain ⟨ascending, few⟩ := h.loops r counts hx
    rw [ascending, List.mem_range] at hi
    have word := Cursor.capOf_le_word r iterations
    omega

/-- Siblings come to an end, in one way only and within the caps, and it is known what breaks them off. -/
def Completes (limits : Limits) (f : Frame) (body : List Block) (st : RunState) (o : Outcome)
    (st' : RunState) : Prop :=
  ∃ deeds,
    (∀ deeds' r st'', Does limits f (.siblings none body) st deeds' r st'' ↔
      deeds' = deeds ∧ r = (o, none) ∧ st'' = st') ∧
    Bounded limits f deeds ∧
    (max f.callDepth limits.maxCallDepth ≤ Limits.maxWord32 →
      limits.maxIterations ≤ Limits.maxWord32 → InWords deeds) ∧
    st.machine.Breaks limits deeds o st'.machine

/-- The interpreter's result is the end that siblings come to. -/
theorem completes_run (limits : Limits) (f : Frame) (body : List Block) (st : RunState) :
    Completes limits f body st ((run limits f body).run st).1 ((run limits f body).run st).2 := by
  obtain ⟨deeds, o, held, st', done⟩ := ends limits f (.siblings none body) st
  obtain rfl := done.held_siblings
  have result : (run limits f body).run st = (o, st') := Run.outcome_eq done.sound
  have bounded := done.bounded trivial
  rw [result]
  refine ⟨deeds, fun deeds' r st'' => ⟨done.unique, ?_⟩, bounded, bounded.inWords, done.breaks⟩
  rintro ⟨rfl, rfl, rfl⟩
  exact done

namespace LoopTask

/-- What a poll comes to: the body of the loop is entered at most once, below the limit, and comes to
an end. -/
inductive Turn (limits : Limits) (t : LoopTask) (m : Machine) : Poll × LoopTask × Machine → Prop where
  /-- The loop has been stopped, or its actor is gone. -/
  | idle (ended : t.isOver m = true) : Turn limits t m (t.finish m .success)
  /-- The loop ends before its body. -/
  | ended (live : t.isOver m = false) {o : Outcome} {st : RunState}
      (opened : (Loop.opens t.context.frame t.cursor).run ⟨t.context.scope, m⟩ = (some o, st)) :
      Turn limits t m ({ t with context := ⟨t.context.frame, st.scope⟩ }.finish st.machine o.settled)
  /-- The loop ends after its body. -/
  | last (live : t.isOver m = false) (below : t.cursor.iteration < t.cursor.limit)
      {o o' : Outcome} {st st₁ st₂ : RunState}
      (opened : (Loop.opens t.context.frame t.cursor).run ⟨t.context.scope, m⟩ = (none, st₁))
      (inside : Completes limits t.context.frame t.body st₁ o st₂)
      (closed : (Loop.closes t.context.frame t.cursor o).run st₂ = (.done o', st)) :
      Turn limits t m ({ t with context := ⟨t.context.frame, st.scope⟩ }.finish st.machine o'.settled)
  /-- The loop goes on, one iteration further. -/
  | next (live : t.isOver m = false) (below : t.cursor.iteration < t.cursor.limit)
      {o : Outcome} {st st₁ st₂ : RunState}
      (opened : (Loop.opens t.context.frame t.cursor).run ⟨t.context.scope, m⟩ = (none, st₁))
      (inside : Completes limits t.context.frame t.body st₁ o st₂)
      (closed : (Loop.closes t.context.frame t.cursor o).run st₂ = (.next t.cursor.next, st)) :
      Turn limits t m (.pending, { t with
        context := ⟨t.context.frame, st.scope⟩
        cursor := t.cursor.next
        nextTick := st.machine.agenda.tick + t.interval }, st.machine)

theorem turn_poll (t : LoopTask) (limits : Limits) (m : Machine) :
    Turn limits t m (t.poll m limits) := by
  have polled := t.polled m limits
  generalize t.poll m limits = result at polled ⊢
  cases polled with
  | idle ended => exact .idle ended
  | goesOn live ran =>
      rcases Loop.iterate_cases ran with ⟨o, -, done⟩ | ⟨o, st₁, st₂, opened, inside, closed⟩
      · cases done
      · obtain rfl := Loop.eq_next_of_closes closed
        have completes := completes_run limits t.context.frame t.body st₁
        rw [inside] at completes
        exact .next live (Loop.lt_limit_of_opens opened) opened completes closed
  | ends live ran =>
      rcases Loop.iterate_cases ran with ⟨o, opened, done⟩ | ⟨o, st₁, st₂, opened, inside, closed⟩
      · cases done
        exact .ended live opened
      · have completes := completes_run limits t.context.frame t.body st₁
        rw [inside] at completes
        exact .last live (Loop.lt_limit_of_opens opened) opened completes closed

/-- A loop after a number of polls that it went on from.  In between a session may give it another
context. -/
inductive Later (limits : Limits) (t₀ : LoopTask) : Nat → LoopTask → Prop where
  | start : Later limits t₀ 0 t₀
  | poll {n : Nat} {t t' : LoopTask} {m m' : Machine} (before : Later limits t₀ n t)
      (polled : t.poll m limits = (.pending, t', m')) : Later limits t₀ (n + 1) t'
  | context {n : Nat} {t : LoopTask} (before : Later limits t₀ n t) (c : Context) :
      Later limits t₀ n { t with context := c }

/-- Each poll that a loop goes on from takes up one iteration of those that it had left. -/
theorem Later.cursor {limits : Limits} {t₀ t : LoopTask} {n : Nat} (h : Later limits t₀ n t) :
    t.cursor.iteration = t₀.cursor.iteration + n ∧ n + t.cursor.room = t₀.cursor.room := by
  induction h with
  | start => exact ⟨rfl, Nat.zero_add _⟩
  | @poll n t t' m m' before polled ih =>
      have turn := t.turn_poll limits m
      rw [polled] at turn
      cases turn with
      | next live below opened inside closed =>
          have fewer := Cursor.room_next below
          refine ⟨?_, ?_⟩
          · show t.cursor.iteration + 1 = _
            rw [ih.1, Nat.add_assoc]
          · show n + 1 + t.cursor.next.room = _
            omega
  | context before c ih => exact ih

end LoopTask

/-- From a machine, every unit of work returns: nothing in it panics. -/
structure Returns (limits : Limits) (m : Machine) : Prop where
  /-- Siblings. -/
  siblings : ∀ (c : Context) (body : List Block), (c.runBlocks m limits body).2.2.contradicted = false
  /-- A line. -/
  line : ∀ (c : Context) (l : Line), (c.runLine m limits l).2.2.contradicted = false
  /-- A delayed body. -/
  delayed : ∀ d : Delayed, (d.run m limits).2.2.contradicted = false
  /-- A poll of a loop. -/
  poll : ∀ t : LoopTask, (t.poll m limits).2.2.contradicted = false

/-- Every unit of work returns exactly if the magnitude limit is not negative. -/
theorem returns_iff {limits : Limits} {m : Machine} (quiet : m.contradicted = false) :
    Returns limits m ↔ ¬ limits.magnitude < 0 := by
  constructor
  · intro returns negative
    obtain ⟨-, noted⟩ := Context.panics_adding negative default m
    rw [returns.siblings] at noted
    cases noted
  · intro sound
    have silent {m' : Machine} (posts : m.Posts limits m') : m'.contradicted = false :=
      Bool.eq_false_iff.mpr fun noted => (posts.sound noted).elim (by simp [quiet]) sound
    exact {
      siblings := fun c body => silent (c.posts_runBlocks m limits body)
      line := fun c l => silent (c.posts_runLine m limits l)
      delayed := fun d => silent (d.context.posts_runBlocks m limits d.body)
      poll := fun t => silent (t.posts_poll m limits) }

/-- **Every unit of work ends within its caps**, whatever the blocks, the functions, the caps, the
context and the machine are.  Siblings, lines and delayed bodies come to the end that the relation
without bounds comes to, and to no other.  A poll enters the body of its loop at most once and below
the limit, and a loop that is polled again and again has one iteration less left each time that it goes
on.

**The end is a return exactly if the magnitude limit is not negative.**  Under a negative limit every
calculation with a finite result panics, and the end is where the first of these has broken the unit off. -/
theorem units_complete (limits : Limits) (m : Machine) :
    (∀ (c : Context) (body : List Block), ∃ o st,
      c.runBlocks m limits body = (o, ⟨c.frame, st.scope⟩, st.machine) ∧
        Completes limits c.frame body ⟨c.scope, m⟩ o st) ∧
    (∀ (c : Context) (l : Line),
      (l.enabled = false → c.runLine m limits l = (.success, c, m)) ∧
      (l.enabled = true → ∃ o st,
        c.runLine m limits l =
          (o.settled, ⟨{ c.frame with line := l.name }, st.scope⟩, st.machine) ∧
          Completes limits { c.frame with line := l.name } l.body ⟨c.scope, m⟩ o st)) ∧
    (∀ d : Delayed, ∃ o st,
      d.run m limits =
        (o.settled, { d with context := ⟨d.context.frame, st.scope⟩ }, st.machine) ∧
        Completes limits d.context.frame d.body ⟨d.context.scope, m⟩ o st) ∧
    (∀ t : LoopTask, LoopTask.Turn limits t m (t.poll m limits)) ∧
    (∀ (t₀ t : LoopTask) (n : Nat), LoopTask.Later limits t₀ n t →
      t.cursor.iteration = t₀.cursor.iteration + n ∧ n + t.cursor.room = t₀.cursor.room) ∧
    (∀ (op : MathOp) (left right : Float) (dice : Dice),
      (op.apply left right limits.magnitude dice).1 = .error .panic ↔
        limits.magnitude < 0 ∧
          ∃ x, (op.compute left right dice).1 = .ok x ∧ Binary.isFinite x = true) ∧
    (m.contradicted = false → (Returns limits m ↔ ¬ limits.magnitude < 0)) := by
  refine ⟨fun c body => ⟨_, _, rfl, completes_run limits c.frame body _⟩, fun c l => ⟨?_, ?_⟩,
    fun d => ⟨_, _, rfl, completes_run limits d.context.frame d.body _⟩,
    fun t => t.turn_poll limits m, fun _ _ _ later => later.cursor,
    fun op left right dice => op.apply_eq_panic_iff left right limits.magnitude dice, returns_iff⟩
  · intro off
    simp only [Context.runLine, off]
    rfl
  · intro on
    refine ⟨_, _, ?_, completes_run limits { c.frame with line := l.name } l.body ⟨c.scope, m⟩⟩
    simp only [Context.runLine, on]
    rfl

/-- A line that adds one and one. -/
def Line.adding : Line := { name := "sum", blocks := [⟨⟨1⟩, .event (some .join), []⟩, .adding] }

/-- Under the limits as they are by default every unit returns.  If the magnitude limit is turned round, this
line does not, in any context. -/
theorem units_complete_adding : Returns {} {} ∧ ¬ Returns { magnitude := -1 } {} ∧
    ∀ c : Context, (c.runLine {} { magnitude := -1 } .adding).1 = .error .panic := by
  have sound : ¬ ({} : Limits).magnitude < 0 := by decide +kernel
  have negative : ({ magnitude := -1 } : Limits).magnitude < 0 := by decide +kernel
  obtain ⟨-, -, -, -, -, -, returns⟩ := units_complete {} {}
  obtain ⟨-, -, -, -, -, -, returns'⟩ := units_complete { magnitude := -1 } {}
  refine ⟨(returns rfl).mpr sound, fun all => (returns' rfl).mp all negative, fun c => ?_⟩
  have panics := (Context.panics_adding negative { c with frame.line := "sum" } {}).1
  simp only [Context.runLine, Line.adding, Line.body, if_true, panics]
  rfl

end Blockwork
