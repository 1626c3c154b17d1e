import Blockwork.Proofs.Machine.Bounds
import Blockwork.Proofs.Machine.Mirrors
import Blockwork.Proofs.Machine.Sufficient

/-!
# Valid scripts and absent parameters

Whatever a valid script gives rise to -- its lines, its functions, the bodies that they put off and
the iterations of the loops that they hand over, in any context, machine and world -- every block
that runs has what its instruction needs.  A failure for want of a parameter comes from one place
only: the question of a `WHILE` or `UNTIL` loop that lacks an operand which its check
reads.  Validation looks at the operands of an `IF`, and of a loop's question at the check alone;
such a loop fails each time it asks.

## What is load-bearing

`Does.absentOnly`: nothing that is run, called, put off or handed over leaves the script.  The
invariant of the induction is that everything to be done is made of the script's blocks, and that
the question of a loop in the middle lacks nothing but what the script's own loops lack
(`Doing.StemsFrom`).
-/

namespace Blockwork

open Interpreter

/-! ## Work that stems from a script -/

/-- The question that a block asks again and again, if it is a loop that asks one. -/
def Block.question? (b : Block) : Option Condition :=
  match b.instruction with
  | .repeat_ r => r.question?
  | _ => none

namespace Script

/-- What can be absent when a script runs: a name that comes out blank, and what the question of one
of its loops lacks. -/
def Spares (s : Script) (a : Absence) : Prop :=
  a.IsBlank ∨ ∃ b ∈ s.nodes, ∃ q, b.question? = some q ∧ q.Lacks a

end Script

/-- A frame whose functions are blocks of a script. -/
def Frame.StemsFrom (s : Script) (f : Frame) : Prop :=
  ∀ name b, f.functions.get? name = some b → b ∈ s.nodes

/-- A loop in the middle whose body is of a script, and whose question lacks nothing that is not
spared. -/
structure Cursor.StemsFrom (s : Script) (body : List Block) (c : Cursor) : Prop where
  /-- The body. -/
  body : ∀ b ∈ body, b ∈ s.nodes
  /-- The question. -/
  asks : c.AsksFor s.Spares

/-- Something to be done that is made of a script's blocks. -/
def Doing.StemsFrom (s : Script) : Doing → Prop
  | .instruction _ children i => ∃ id, ⟨id, i, children⟩ ∈ s.nodes
  | .block _ b => b ∈ s.nodes
  | .siblings _ bs => ∀ b ∈ bs, b ∈ s.nodes
  | .rounds _ body c _ => c.StemsFrom s body
  | .call _ => True

/-- Something done that stems from a script, and fails for nothing but what is spared. -/
def Deed.StemsFrom (s : Script) : Deed → Prop
  | .ran _ b o => b ∈ s.nodes ∧ o.AbsentOnly s.Spares
  | .called _ | .looped _ _ => True
  | .postponed _ d => d.context.frame.StemsFrom s ∧ ∀ b ∈ d.body, b ∈ s.nodes
  | .spread _ t => t.context.frame.StemsFrom s ∧ t.cursor.StemsFrom s t.body

/-- **What stems from a valid script stays within it**, and fails for want of nothing but what is
spared. -/
theorem Does.absentOnly {s : Script} (complete : ∀ b ∈ s.nodes, b.Complete) {limits : Limits}
    {f : Frame} {doing : Doing} {st st' : RunState} {deeds : List Deed} {r : Outcome × Option Bool}
    (h : Does limits f doing st deeds r st') (knows : f.StemsFrom s) (stems : doing.StemsFrom s) :
    r.1.AbsentOnly s.Spares ∧ ∀ x ∈ deeds, x.StemsFrom s := by
  -- what is chosen for a block of the script
  have suited {f : Frame} {previous : Option Bool} {children : List Block} {i : Instruction}
      {st st' : RunState} {x : Choice} (stems : ∃ id, ⟨id, i, children⟩ ∈ s.nodes)
      (chose : (choose limits f previous children i).run st = (x, st')) : Suited f i x := by
    obtain ⟨id, inside⟩ := stems
    exact (yields_choose (complete _ inside).suffices limits f previous children).of_run chose
  have below {children : List Block} {i : Instruction} (stems : ∃ id, ⟨id, i, children⟩ ∈ s.nodes) :
      ∀ b ∈ children, b ∈ s.nodes := by
    obtain ⟨id, inside⟩ := stems
    exact fun b child => Block.mem_preorderAll_of_child child inside
  -- a loop that a block of the script begins
  have started {children : List Block} {r : Repeat} {sc : Scene} {c : Cursor}
      (stems : ∃ id, ⟨id, .repeat_ r, children⟩ ∈ s.nodes)
      (start : Cursor.start sc limits r = .ok c) : c.StemsFrom s children := by
    refine ⟨below stems, fun q question => ?_⟩
    obtain ⟨id, inside⟩ := stems
    rw [Cursor.condition_start start] at question
    refine ⟨fun none => ?_, fun a lack => .inr ⟨_, inside, q, question, lack⟩⟩
    obtain ⟨⟨m, mode, asks⟩, condition⟩ := Repeat.question?_eq_some_iff.mp question
    exact (complete _ inside).requirements _ (.check mode asks condition none)
  have blank {o : Outcome} (h : o.AbsentOnly Absence.IsBlank) : o.AbsentOnly s.Spares :=
    fun a failed => .inl (h a failed)
  have nothing : ∀ x ∈ ([] : List Deed), x.StemsFrom s := fun x inside => nomatch inside
  have single {x : Deed} (h : x.StemsFrom s) : ∀ y ∈ [x], y.StemsFrom s :=
    List.forall_mem_singleton.mpr h
  induction h with
  | settled chose => exact ⟨blank (suited stems chose), nothing⟩
  | postponed chose =>
      obtain ⟨-, rfl, -⟩ := made_of_choose chose
      exact ⟨nofun, single ⟨knows, below stems⟩⟩
  | spread chose =>
      obtain ⟨sc, c, handle, m, start, -, rfl, -⟩ := made_of_choose chose
      obtain rfl := suited stems chose
      exact ⟨nofun, single ⟨knows, started stems start⟩⟩
  | within chose inside ih =>
      have functions := suited stems chose
      refine ih ?_ (below stems)
      intro name b found
      exact knows name b (functions ▸ found)
  | loop chose rounds ih =>
      obtain ⟨-, sc, start⟩ := made_of_choose chose
      obtain rfl := suited stems chose
      exact ih knows (started stems start)
  | call chose calls ih => exact ih knows trivial
  | block inside ih =>
      obtain ⟨known, deeds⟩ := ih knows ⟨_, stems⟩
      exact ⟨known, List.forall_mem_append.mpr ⟨deeds, single ⟨stems, known⟩⟩⟩
  | nil => exact ⟨nofun, nothing⟩
  | stop first failed ih => exact ih knows (List.forall_mem_cons.mp stems).1
  | go first succeeded others ih ih' =>
      obtain ⟨here, rest⟩ := List.forall_mem_cons.mp stems
      obtain ⟨known, later⟩ := ih' knows rest
      exact ⟨known, List.forall_mem_append.mpr ⟨(ih knows here).2, later⟩⟩
  | cancelled raised => exact ⟨nofun, single trivial⟩
  | ended quiet opened =>
      exact ⟨(Loop.yields_opens stems.asks).of_run opened _ rfl, single trivial⟩
  | last quiet opened inside closed ih =>
      obtain ⟨known, deeds⟩ := ih knows stems.body
      exact ⟨(Loop.yields_closes stems.asks known).of_run closed _ rfl,
        List.forall_mem_append.mpr ⟨deeds, single trivial⟩⟩
  | next quiet opened inside closed others ih ih' =>
      obtain ⟨-, deeds⟩ := ih knows stems.body
      obtain rfl := Loop.eq_next_of_closes closed
      obtain ⟨known, later⟩ := ih' knows ⟨stems.body, stems.asks⟩
      exact ⟨known, List.forall_mem_append.mpr ⟨deeds, later⟩⟩
  | tooDeep full => exact ⟨nofun, nothing⟩
  | refused room found => exact ⟨(absentOnly_callee _ _).outcome found, nothing⟩
  | entered room found inside left ih =>
      have defined := knows _ _ (get?_of_callee found)
      obtain ⟨known, deeds⟩ := ih (by rw [bindParameters_frame]; exact knows) fun b child =>
        Block.mem_preorderAll_of_child child defined
      exact ⟨(yields_leave known).of_run left, List.forall_mem_cons.mpr ⟨trivial, deeds⟩⟩

/-! ## Executions -/

/-- An execution of what a script consists of or gives rise to, in whatever context, machine and
world: its deeds and its outcome.  A body that was put off and an iteration of a loop that was
handed over run in whatever context has the functions that the run before them had. -/
inductive Script.Executes (s : Script) (limits : Limits) : List Deed → Outcome → Prop where
  /-- A line. -/
  | line {l : Line} {c : Context} {m : Machine} {deeds : List Deed} {o : Outcome} {held : Option Bool}
      {st : RunState} (inside : l ∈ s.lines)
      (functions : c.frame.functions = collectFunctions s.blocks)
      (ran : Does limits c.frame (.siblings none l.body) ⟨c.scope, m⟩ deeds (o, held) st) :
      Executes s limits deeds o
  /-- A function. -/
  | function {name : String} {b : Block} {c : Context} {m : Machine} {deeds : List Deed} {o : Outcome}
      {held : Option Bool} {st : RunState} (defined : (collectFunctions s.blocks).get? name = some b)
      (functions : c.frame.functions = collectFunctions s.blocks)
      (ran : Does limits c.frame (.siblings none b.children) ⟨c.scope, m⟩ deeds (o, held) st) :
      Executes s limits deeds o
  /-- A body that was put off. -/
  | delayed {before : List Deed} {last : Outcome} {wait : Float} {d : Delayed} {c : Context} {m : Machine}
      {deeds : List Deed} {o : Outcome} {held : Option Bool} {st : RunState}
      (earlier : Executes s limits before last) (postponed : .postponed wait d ∈ before)
      (functions : c.frame.functions = d.context.frame.functions)
      (ran : Does limits c.frame (.siblings none d.body) ⟨c.scope, m⟩ deeds (o, held) st) :
      Executes s limits deeds o
  /-- An iteration of a loop that was handed over. -/
  | iteration {before : List Deed} {last : Outcome} {r : Repeat} {t t' : LoopTask} {n : Nat} {c : Context}
      {m : Machine} {deeds : List Deed} {step : Step} {st : RunState}
      (earlier : Executes s limits before last) (spread : .spread r t ∈ before)
      (later : LoopTask.Later limits t n t')
      (functions : c.frame.functions = t.context.frame.functions)
      (ran : Iterates limits c.frame t'.body t'.cursor ⟨c.scope, m⟩ deeds step st) :
      Executes s limits deeds step.outcome

/-- A loop keeps its body and its question. -/
theorem LoopTask.Later.stemsFrom {s : Script} {limits : Limits} {t t' : LoopTask} {n : Nat}
    (h : Later limits t n t') (stems : t.cursor.StemsFrom s t.body) : t'.cursor.StemsFrom s t'.body := by
  induction h with
  | start => exact stems
  | @poll n t t' m m' before polled ih =>
      have turn := t.turn_poll limits m
      rw [polled] at turn
      cases turn with
      | next live below opened inside closed => exact ⟨ih.body, ih.asks⟩
  | context before c ih => exact ih

/-- An iteration of a loop of a valid script. -/
theorem Iterates.absentOnly {s : Script} (complete : ∀ b ∈ s.nodes, b.Complete) {limits : Limits}
    {f : Frame} {body : List Block} {c : Cursor} {st st' : RunState} {deeds : List Deed} {step : Step}
    (h : Iterates limits f body c st deeds step st') (knows : f.StemsFrom s)
    (stems : c.StemsFrom s body) :
    step.outcome.AbsentOnly s.Spares ∧ ∀ x ∈ deeds, x.StemsFrom s := by
  cases h with
  | ended opened =>
      exact ⟨(Loop.yields_opens stems.asks).of_run opened _ rfl, fun x inside => nomatch inside⟩
  | entered opened inside closed =>
      obtain ⟨ran, deeds⟩ := inside.absentOnly complete knows stems.body
      have known := (Loop.yields_closes stems.asks ran).of_run closed
      refine ⟨?_, deeds⟩
      cases step with
      | next c' => exact nofun
      | done o => exact known o rfl

namespace Script

variable {s : Script}

/-- The functions of a script are blocks of it. -/
theorem mem_nodes_of_get? {name : String} {b : Block}
    (found : (collectFunctions s.blocks).get? name = some b) : b ∈ s.nodes := by
  rw [get?_collectFunctions] at found
  obtain ⟨t, tree, inside⟩ := List.mem_flatMap.mp (List.mem_of_find?_eq_some found)
  exact Block.mem_preorderAll_of_mem_preorder tree inside

/-- The body of a line is made of blocks of the script. -/
theorem mem_nodes_of_body {l : Line} (line : l ∈ s.lines) {b : Block} (inside : b ∈ l.body) :
    b ∈ s.nodes := by
  refine Block.mem_preorderAll_of_mem (List.mem_flatMap.mpr ⟨l, line, ?_⟩)
  unfold Line.body at inside
  split at inside
  · next first rest blocks =>
    rw [blocks]
    split at inside
    · exact List.mem_cons_of_mem _ inside
    · exact inside
  · cases inside

/-- **Every execution that stems from a valid script** runs blocks of the script only, and fails for
want of nothing but what is spared. -/
theorem Executes.absentOnly (complete : ∀ b ∈ s.nodes, b.Complete) {limits : Limits}
    {deeds : List Deed} {o : Outcome} (h : s.Executes limits deeds o) :
    o.AbsentOnly s.Spares ∧ ∀ x ∈ deeds, x.StemsFrom s := by
  have knows {f : Frame} (functions : f.functions = collectFunctions s.blocks) : f.StemsFrom s := by
    intro name b found
    exact mem_nodes_of_get? (functions ▸ found)
  have same {f g : Frame} (functions : f.functions = g.functions) (stems : g.StemsFrom s) :
      f.StemsFrom s := by
    intro name b found
    exact stems name b (functions ▸ found)
  induction h with
  | line inside functions ran =>
      exact ran.absentOnly complete (knows functions) fun b => mem_nodes_of_body inside
  | function defined functions ran =>
      exact ran.absentOnly complete (knows functions) fun b child =>
        Block.mem_preorderAll_of_child child (mem_nodes_of_get? defined)
  | delayed earlier postponed functions ran ih =>
      obtain ⟨stems, body⟩ := ih.2 _ postponed
      exact ran.absentOnly complete (same functions stems) body
  | iteration earlier spread later functions ran ih =>
      obtain ⟨stems, loop⟩ := ih.2 _ spread
      exact ran.absentOnly complete (same functions stems) (later.stemsFrom loop)

end Script

/-! ## Loops whose question lacks an operand -/

namespace Loop

open Run (Yields)

variable {f : Frame} {body : Run Outcome} {c : Cursor} {q : Condition} {a : Absence}

/-- A question that lacks an operand fails each time it is asked. -/
theorem yields_ask_of_lacks (question : c.condition = some q) (lack : q.Lacks a) :
    Yields (· = .error (.absent a)) (ask f c) := by
  unfold ask
  rw [question]
  exact .bind fun s => .roll fun dice => (s.evaluate_fails_iff q dice a).mpr (.inr lack)

/-- A `WHILE` loop whose question lacks an operand fails before its first iteration. -/
theorem iterate_of_while (mode : c.mode = .while_) (question : c.condition = some q)
    (lack : q.Lacks a) : Yields (· = .done (.error (.absent a))) (iterate f body c) := by
  have asked := yields_ask_of_lacks (f := f) question lack
  unfold iterate
  split
  · unfold close
    rw [mode]
    refine .after (P := (· = .error (.absent a))) (.after asked ?_) ?_
    · rintro _ rfl
      exact .pure rfl
    · rintro _ rfl
      exact .pure rfl
  · unfold step
    rw [mode]
    refine .after asked ?_
    rintro _ rfl
    exact .pure rfl

/-- An `UNTIL` loop whose question lacks an operand fails after its first iteration, if that does
not leave it. -/
theorem iterate_of_until (mode : c.mode = .until_) (question : c.condition = some q)
    (lack : q.Lacks a) (room : c.room ≠ 0)
    (stays : Yields (fun o => o = .success ∨ o = .continue_) body) :
    Yields (· = .done (.error (.absent a))) (iterate f body c) := by
  have asked := yields_ask_of_lacks (f := f) (c := c.next) question lack
  have proceeds : Yields (· = .done (.error (.absent a))) (proceed f c) := by
    unfold proceed
    rw [mode]
    refine .after asked ?_
    rintro _ rfl
    exact .pure rfl
  obtain ⟨n, room⟩ := Nat.exists_eq_succ_of_ne_zero room
  unfold iterate step enter
  rw [room, mode]
  refine .bind fun _ => .after stays ?_
  rintro _ (rfl | rfl)
  · exact proceeds
  · exact proceeds

/-- A loop fails for want of something, be it run to its end or one iteration at a time. -/
structure FailsFor (a : Absence) (f : Frame) (body : Run Outcome) (c : Cursor) : Prop where
  /-- Its iteration is its last. -/
  iteration : Yields (· = .done (.error (.absent a))) (iterate f body c)
  /-- Unless it is cancelled before, it ends so. -/
  atOnce : ∀ st, st.machine.signals.isRaised f.cancel = false →
    ((cycle f body c.room c).run st).1 = .error (.absent a)

theorem FailsFor.of_iterate (h : Yields (· = .done (.error (.absent a))) (iterate f body c)) :
    FailsFor a f body c := by
  refine ⟨h, fun st quiet => ?_⟩
  have ended : Yields (· = .error (.absent a)) (iterate f body c >>= rest f body) := by
    refine .after h ?_
    rintro _ rfl
    exact .pure rfl
  rw [cycle_eq_iterate quiet]
  exact ended st

end Loop

/-- **In a valid script nothing is absent but operands of loops' questions.**  Every execution that
stems from it runs complete blocks only, and a block or the whole fails for want of something only
if that is a name that comes out blank, or an operand that the question of one of the script's
`WHILE` or `UNTIL` loops reads and lacks.  Such a loop is accepted and starts, and then it fails: a
`WHILE` loop at once, and an `UNTIL` loop after its first iteration, if that does not leave it. -/
theorem Script.absences_exact {s : Script} (valid : s.validate = .ok ()) :
    (∀ limits deeds o, s.Executes limits deeds o →
      (∀ f b o', .ran f b o' ∈ deeds → b.Complete ∧ o'.AbsentOnly s.Spares) ∧
        o.AbsentOnly s.Spares) ∧
    ∀ b ∈ s.nodes, ∀ r q a, b.instruction = .repeat_ r → r.question? = some q → q.Lacks a →
      ∀ limits scene, ∃ c, Cursor.start scene limits r = .ok c ∧ ∀ f body,
        (r.mode = some .while_ ∨ Cursor.capOf limits r ≠ 0 ∧
          Run.Yields (fun o => o = .success ∨ o = .continue_) body) →
        Loop.FailsFor a f body c := by
  have complete := ((validate_exact s).1.mp valid).blocks
  refine ⟨fun limits deeds o executed => ?_, fun b inside r q a loop question lack limits scene => ?_⟩
  · obtain ⟨known, stems⟩ := executed.absentOnly complete
    refine ⟨fun f b o' ran => ?_, known⟩
    obtain ⟨inside, known'⟩ := stems _ ran
    exact ⟨complete b inside, known'⟩
  · obtain ⟨⟨m, mode, asks⟩, condition⟩ := Repeat.question?_eq_some_iff.mp question
    have start : Cursor.start scene limits r =
        .ok { mode := m, condition := some q, cap := Cursor.capOf limits r } := by
      unfold Cursor.start
      rcases asks with rfl | rfl <;> simp [mode, condition]
    refine ⟨_, start, fun f body stays => .of_iterate ?_⟩
    rcases asks with rfl | rfl
    · exact Loop.iterate_of_while rfl rfl lack
    · rcases stays with other | ⟨room, stays⟩
      · rw [mode] at other
        cases other
      · exact Loop.iterate_of_until rfl rfl lack room stays

/-- A script that watches for something and does not say for what. -/
def watching : Script :=
  { ownerId := ⟨1⟩
    ownerName := "ada"
    lastModified := ⟨0, 0⟩
    lines := [{
      name := "watch"
      blocks := [
        ⟨⟨2⟩, .event (some .join), []⟩,
        ⟨⟨3⟩, .repeat_ (.withCondition .while_ { check := some .equals }), []⟩] }] }

/-- **The script that watches is valid, and its loop fails for want of an operand**, under whatever
limits and in whatever scene and frame; so does the line when it is run. -/
theorem fails_watching : watching.validate = .ok () ∧
    (∀ limits scene, ∃ c, Cursor.start scene limits (.withCondition .while_ { check := some .equals }) =
      .ok c ∧ ∀ f body, Loop.FailsFor (.operand "left operand") f body c) ∧
    ((Context.detached ⟨1⟩ 0).runBlocks {} {} (watching.lines.flatMap Line.body)).1 =
      .error (.missing "left operand") := by
  have valid : watching.validate = .ok () := by with_unfolding_all rfl
  have inside : ⟨⟨3⟩, .repeat_ (.withCondition .while_ { check := some .equals }), []⟩ ∈ watching.nodes :=
    List.mem_cons_of_mem _ (List.mem_cons_self ..)
  refine ⟨valid, fun limits scene => ?_, rfl⟩
  obtain ⟨c, start, fails⟩ := (Script.absences_exact valid).2 _ inside _ _ _ rfl rfl
    (.left rfl rfl rfl) limits scene
  exact ⟨c, start, fun f body => fails f body (.inl rfl)⟩

end Blockwork
