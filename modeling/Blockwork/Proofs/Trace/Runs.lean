import Blockwork.Proofs.Machine.Changes
import Blockwork.Proofs.Trace.Faithful

/-!
# Runs with notes stand for runs

The interpreter with notes does what the interpreter does (`Traces.run`).  The recursion is that of
the interpreter, on the block tree, on the iterations of a loop and on the calls that may still be
nested.

All of it is sequencing but for calls.  A call binds its parameters in a copy of the caller's overlay
and runs there; when it ends, the caller's overlay comes back, changed where the call's variables
differ from it (`TracesFrom.within`, `TracesFrom.takeOver`).
-/

namespace Blockwork

variable {α β : Type} {g : Table String Datum} {base : Overlay}

namespace Traces

/-! ## Single blocks -/

variable {f : Frame}

theorem variableStep (under : f.globals = g) (v : VariableStep) :
    Traces g (Traced.variableStep f v) (Run.variableStep f v) := by
  refine scene under fun s => bind (quiet (Run.Silent.reading.roll _)) fun result => ?_
  rcases result with e | ⟨name, update⟩
  · exact pure _
  · cases update with
    | set d => exact bind (set name d) fun _ => pure _
    | clear => exact bind (clear name) fun _ => pure _
    | keep => exact pure _

theorem mathStep (limits : Limits) (under : f.globals = g) (m : MathStep) :
    Traces g (Traced.mathStep limits f m) (Run.mathStep limits f m) := by
  refine scene under fun s => bind (quiet (Run.Silent.reading.roll _)) fun result => ?_
  rcases result with e | ⟨name, x⟩
  · dsimp only
    split
    · exact bind (quiet .contradict) fun _ => pure _
    · exact pure _
  · exact bind (set name _) fun _ => pure _

theorem textStep (limits : Limits) (under : f.globals = g) (t : TextStep) :
    Traces g (Traced.textStep limits f t) (Run.textStep limits f t) := by
  refine scene under fun s => ?_
  rcases s.textResult t limits with e | ⟨name, d⟩
  · exact pure _
  · exact bind (set name d) fun _ => pure _

/-! ## Loops -/

theorem ask (under : f.globals = g) (c : Cursor) : Traces g (Traced.ask f c) (Loop.ask f c) := by
  unfold Traced.ask Loop.ask
  cases c.condition with
  | none => exact pure _
  | some condition => exact looking under (Run.Silent.reading.evaluate f condition)

theorem close (under : f.globals = g) (c : Cursor) :
    Traces g (Traced.close f c) (Loop.close f c) := by
  unfold Traced.close Loop.close
  cases c.mode with
  | times => exact pure _
  | forEach => exact pure _
  | while_ =>
      refine bind (ask under c) fun answer => ?_
      rcases answer with e | _ | _ <;> exact pure _
  | until_ => exact pure _
  | forever => exact pure _

theorem publishItem (c : Cursor) : Traces g (Traced.publishItem c) (Loop.publishItem c) := by
  unfold Traced.publishItem Loop.publishItem
  cases c.mode with
  | forEach =>
      cases c.items[c.iteration]? with
      | none => exact pure _
      | some d => exact set _ d
  | _ => exact pure _

theorem publish (c : Cursor) : Traces g (Traced.publish c) (Loop.publish c) :=
  bind (publishItem c) fun _ => bind (set _ _) fun _ => set _ _

theorem proceed (under : f.globals = g) (c : Cursor) :
    Traces g (Traced.proceed f c) (Loop.proceed f c) := by
  unfold Traced.proceed Loop.proceed
  cases c.mode with
  | until_ =>
      refine bind (ask under c.next) fun answer => ?_
      rcases answer with e | _ | _ <;> exact pure _
  | _ => exact pure _

variable {body : Traced Outcome} {body' : Run Outcome}

theorem enterLoop (under : f.globals = g) (inner : Traces g body body') (c : Cursor) :
    Traces g (Traced.enterLoop f body c) (Loop.enter f body' c) := by
  refine bind (publish c) fun _ => bind inner fun outcome => ?_
  cases outcome with
  | success => exact proceed under c
  | continue_ => exact proceed under c
  | _ => exact pure _

theorem step (under : f.globals = g) (inner : Traces g body body') (c : Cursor) :
    Traces g (Traced.step f body c) (Loop.step f body' c) := by
  unfold Traced.step Loop.step
  cases c.mode with
  | while_ =>
      refine bind (ask under c) fun answer => ?_
      rcases answer with e | _ | _
      · exact pure _
      · exact pure _
      · exact enterLoop under inner c
  | _ => exact enterLoop under inner c

theorem iterate (under : f.globals = g) (inner : Traces g body body') (c : Cursor) :
    Traces g (Traced.iterate f body c) (Loop.iterate f body' c) := by
  unfold Traced.iterate Loop.iterate
  cases c.room with
  | zero => exact bind (close under c) fun _ => pure _
  | succ _ => exact step under inner c

theorem cycle (under : f.globals = g) (inner : Traces g body body') (n : Nat) (c : Cursor) :
    Traces g (Traced.cycle f body n c) (Loop.cycle f body' n c) := by
  induction n generalizing c with
  | zero =>
      refine bind (quiet (.isRaised f.cancel)) fun raised => ?_
      cases raised with
      | true => exact pure _
      | false => exact close under c
  | succ n ih =>
      refine bind (quiet (.isRaised f.cancel)) fun raised => ?_
      cases raised with
      | true => exact pure _
      | false =>
          refine bind (step under inner c) fun result => ?_
          cases result with
          | done o => exact pure o
          | next c => exact ih c

theorem repeat_ (limits : Limits) (under : f.globals = g) (r : Repeat) (blocks : List Block)
    (inner : Traces g body body') :
    Traces g (Traced.repeat_ limits f r blocks body) (Loop.repeat_ limits f r blocks body') := by
  refine scene under fun s => ?_
  rcases Cursor.start s limits r with e | c
  · exact pure _
  · dsimp only
    split
    · exact quiet (.spread f r.interval blocks c)
    · exact cycle under inner c.room c

/-! ## Trees of blocks -/

theorem delay (under : f.globals = g) (ticks : Option Value) (blocks : List Block)
    (inner : Traces g body body') :
    Traces g (Traced.delay f ticks blocks body) (Interpreter.delay f ticks blocks body') := by
  refine scene under fun s => ?_
  rcases s.number ticks "ticks" with e | wait
  · exact pure _
  · dsimp only
    split
    · exact quiet (.postpone f wait blocks)
    · exact inner

/-- Calls with notes stand for calls. -/
def Calls (g : Table String Datum) (call : Traced.Caller) (call' : Interpreter.Caller) : Prop :=
  ∀ f c, f.globals = g → Traces g (call f c) (call' f c)

variable {limits : Limits} {call : Traced.Caller} {call' : Interpreter.Caller}

/-- One case for each instruction. -/
theorem perform (calls : Calls g call call') (under : f.globals = g) (previous : Option Bool)
    (children : List Block) {inner : Frame → Traced Outcome} {inner' : Frame → Run Outcome}
    (inside : ∀ f' : Frame, f'.globals = g → Traces g (inner f') (inner' f')) (i : Instruction) :
    Traces g (Traced.perform limits call f previous children inner i)
      (Interpreter.perform limits call' f previous children inner' i) := by
  cases i with
  | event _ => exact pure _
  | function _ => exact pure _
  | if_ condition =>
      refine bind (looking under (Run.Silent.reading.evaluate f condition)) fun answer => ?_
      rcases answer with e | _ | _
      · exact pure _
      · exact pure _
      · exact bind (inside f under) fun _ => pure _
  | else_ =>
      rcases previous with _ | _ | _
      · exact pure _
      · exact bind (inside f under) fun _ => pure _
      · exact pure _
  | repeat_ r => exact bind (repeat_ limits under r children (inside f under)) fun _ => pure _
  | target t =>
      refine scene under fun s => bind (quiet (Run.Silent.reading.roll _)) fun found => ?_
      rcases found with e | target
      · exact pure _
      · exact bind (inside { f with target := target } under) fun _ => pure _
  | callFunction c => exact bind (calls f c under) fun _ => pure _
  | variable_ v => exact bind (variableStep under v) fun _ => pure _
  | math m => exact bind (mathStep limits under m) fun _ => pure _
  | text t => exact bind (textStep limits under t) fun _ => pure _
  | message shown => exact bind (looking under (Run.Silent.reading.message f shown)) fun _ => pure _
  | teleport place => exact bind (looking under (Run.Silent.reading.teleport f place)) fun _ => pure _
  | sideEffect r => exact bind (looking under (Run.Silent.reading.sideEffect f r)) fun _ => pure _
  | delay ticks => exact bind (delay under ticks children (inside f under)) fun _ => pure _
  | stopLoop => exact bind (quiet (.stopLoop f)) fun _ => pure _
  | break_ => exact pure _
  | continue_ => exact pure _
  | return_ value => exact bind (looking under (Run.Silent.reading.return_ f value)) fun _ => pure _

mutual

theorem block (calls : Calls g call call') {f : Frame} (under : f.globals = g)
    (previous : Option Bool) : ∀ b : Block,
      Traces g (Traced.block limits call f previous b) (Interpreter.block limits call' f previous b)
  | ⟨id, instruction, children⟩ => by
      rw [Traced.block, Interpreter.block]
      have inside (f' : Frame) (under : f'.globals = g) :
          Traces g (Traced.blocks limits call f' none children)
            (Interpreter.blocks limits call' f' none children) :=
        blocks calls under none children
      exact bind (perform calls under previous children inside instruction) fun _ =>
        bind (quiet (.record f _ _)) fun _ => pure _

theorem blocks (calls : Calls g call call') {f : Frame} (under : f.globals = g)
    (previous : Option Bool) : ∀ bs : List Block,
      Traces g (Traced.blocks limits call f previous bs)
        (Interpreter.blocks limits call' f previous bs)
  | [] => by
      rw [Traced.blocks, Interpreter.blocks]
      exact pure _
  | b :: rest => by
      rw [Traced.blocks, Interpreter.blocks]
      refine bind (block calls under previous b) fun result => ?_
      dsimp only
      split
      · exact blocks calls under _ rest
      · exact pure _

end

end Traces

/-! ## Calls -/

namespace Note

theorem touched_map_bind (names : List String) : touched (names.map bind) = names := by
  rw [touched, List.filterMap_map]
  exact List.filterMap_some

theorem changed_map_merge (names : List String) : changed (names.map merge) = names := by
  rw [changed, List.filterMap_map]
  exact List.filterMap_some

theorem touched_map_merge (names : List String) : touched (names.map merge) = names := by
  rw [touched, List.filterMap_map]
  exact List.filterMap_some

end Note

namespace Interpreter

theorem foldl_set_locals {bound : List (String × Datum)} {n : String}
    (hn : n ∉ bound.map Prod.fst) (c : Context) :
    (bound.foldl (fun c p => c.set p.1 p.2) c).scope.locals.get? n = c.scope.locals.get? n := by
  induction bound generalizing c with
  | nil => rfl
  | cons p bound ih =>
      rw [List.map_cons, List.mem_cons, not_or] at hn
      rw [List.foldl_cons, ih hn.2]
      exact Table.get?_insert_of_ne _ _ (Ne.symm hn.1)

/-- Binding parameters changes the overlay only at the parameters. -/
theorem bindParameters_locals (c : Context) {parameters : List String} (values : List Datum)
    {n : String} (hn : n ∉ parameters) :
    (bindParameters c parameters values).scope.locals.get? n = c.scope.locals.get? n := by
  refine foldl_set_locals (fun bound => hn ?_) c.forCall
  obtain ⟨p, mem, rfl⟩ := List.mem_map.mp bound
  exact (List.of_mem_zip mem).1

end Interpreter

/-- What is not merged is left by merging. -/
theorem Traced.foldl_mergeName {caller callee : Context} {names : List String} {n : String}
    (locals : Overlay)
    (hn : n ∈ names → ∃ d, callee.get? n = some d ∧
      ∃ old, caller.get? n = some old ∧ (old == d) = true) :
    (names.foldl (Context.mergeName caller callee) locals).get? n = locals.get? n := by
  induction names generalizing locals with
  | nil => rfl
  | cons name names ih =>
      rw [List.foldl_cons, ih _ fun h => hn (List.mem_cons_of_mem _ h)]
      by_cases same : name = n
      · subst same
        -- the callee ended with the value that the caller had
        obtain ⟨d, found, old, before, eq⟩ := hn (List.mem_cons_self ..)
        unfold Context.mergeName
        simp only [found, before, eq, if_true]
      · unfold Context.mergeName
        split
        · exact Table.get?_insert_of_ne _ _ same
        · split
          · split
            · rfl
            · exact Table.get?_insert_of_ne _ _ same
          · exact Table.get?_insert_of_ne _ _ same

theorem Traced.mergeBack_locals (caller callee : Context) {n : String}
    (hn : n ∉ Traced.merged caller callee) :
    (caller.mergeBack callee).scope.locals.get? n = caller.scope.locals.get? n := by
  refine foldl_mergeName _ fun visible => ?_
  rw [merged, List.mem_filter, not_and] at hn
  have kept := hn visible
  cases found : callee.get? n with
  | none => simp [found] at kept
  | some d =>
      cases before : caller.get? n with
      | none => simp [found, before] at kept
      | some old =>
          simp only [found, before, Bool.not_eq_true', Bool.not_eq_false] at kept
          exact ⟨d, rfl, old, rfl, kept⟩

namespace TracesFrom

variable {notes : List Note} {st : RunState}

/-- A run in a scope of its own, from which the next step goes back. -/
theorem within {t : Traced α} {r : Run α} {k : α → Traced β} {k' : α → Run β} {scope : Scope}
    {bound : List String} (inner : ∀ n, n ∉ bound → scope.locals.get? n = base.get? n)
    (body : Traces g t r) (back : ∀ a notes st, TracesFrom g base (k a) (k' a) notes st) :
    TracesFrom g base
      (Traced.quiet (Run.changeScope fun _ => scope) >>= fun _ =>
        Traced.jot (bound.map .bind) >>= fun _ => t >>= k)
      (Run.changeScope (fun _ => scope) >>= fun _ => r >>= k') notes st := by
  have first := body (notes ++ bound.map .bind) { st with scope := scope }
  have second := back (t.after (notes ++ bound.map .bind) { st with scope := scope }).1.1
    (t.after (notes ++ bound.map .bind) { st with scope := scope }).1.2
    (t.after (notes ++ bound.map .bind) { st with scope := scope }).2
  obtain ⟨more, added, -⟩ := first.grows
  obtain ⟨more', added', frame⟩ := second.grows
  refine ⟨?_, ⟨bound.map .bind ++ more ++ more', ?_, fun n hn => ?_⟩, fun before => ?_⟩
  · show (k' (r.run { st with scope := scope }).1).run (r.run { st with scope := scope }).2 = _
    rw [first.same]
    exact second.same
  · rw [← List.append_assoc, ← List.append_assoc, ← added]
    exact added'
  -- what the inner run has changed is gone with its scope, so only the way back counts
  · rw [Note.changed, List.filterMap_append, List.mem_append, not_or] at hn
    exact frame n hn.2
  · have bindings : Follows g (notes ++ bound.map .bind) scope.locals := by
      refine before.write (fun c h => ?_) fun n hn => inner n ?_
      · obtain ⟨_, _, eq⟩ := List.mem_map.mp h
        cases eq
      · rwa [Note.touched_map_bind] at hn
    have inside := first.follows bindings
    rw [added, List.append_assoc] at inside
    -- the notes of the inner run stay true when the caller's overlay is back
    have outside := inside.restore before
    rw [← List.append_assoc, ← added] at outside
    exact second.follows outside

theorem takeOver (caller : Context) (inner : Frame) :
    TracesFrom g caller.scope.locals (Traced.takeOver caller inner)
      (Run.changeScope fun scope => (caller.mergeBack ⟨inner, scope⟩).scope) notes st := by
  have frame {n : String} (hn : n ∉ Traced.merged caller ⟨inner, st.scope⟩) :=
    Traced.mergeBack_locals caller ⟨inner, st.scope⟩ hn
  refine ⟨rfl, ⟨(Traced.merged caller ⟨inner, st.scope⟩).map .merge, rfl, fun n hn => ?_⟩,
    fun before => ?_⟩
  · rw [Note.changed_map_merge] at hn
    exact frame hn
  · refine before.write (fun c h => ?_) fun n hn => frame ?_
    · obtain ⟨_, _, eq⟩ := List.mem_map.mp h
      cases eq
    · rwa [Note.touched_map_merge] at hn

/-- The caller's overlay is put back. -/
theorem reset (scope : Scope) :
    TracesFrom g scope.locals (Traced.quiet (Run.changeScope fun _ => scope))
      (Run.changeScope fun _ => scope) notes st :=
  ⟨rfl, ⟨[], (List.append_nil notes).symm, fun _ _ => rfl⟩, id⟩

end TracesFrom

theorem Traces.deliver {f : Frame} (under : f.globals = g) (c : Call) (o : Outcome) :
    Traces g (Traced.deliver f c o) (Interpreter.deliver f c o) := by
  unfold Traced.deliver Interpreter.deliver
  cases Interpreter.wantedResult c with
  | none => exact pure _
  | some raw =>
      refine scene under fun s => ?_
      cases o with
      | return_ value =>
          cases value with
          | none => exact clear _
          | some d => exact set _ d
      | _ => exact clear _

theorem TracesFrom.leave {f : Frame} (under : f.globals = g) (c : Call) (caller : Context)
    (inner : Frame) (o : Outcome) (notes : List Note) (st : RunState) :
    TracesFrom g caller.scope.locals (Traced.leave f c caller inner o)
      (Interpreter.leave f c caller inner o) notes st := by
  cases o with
  | error e => exact (reset caller.scope).bind fun _ => .pure _
  | _ => exact (takeOver caller inner).bind fun _ => .bind (.deliver under c _) fun _ => .pure _

namespace Traces

variable {f : Frame}

theorem enter {run : Frame → List Block → Traced Outcome} {run' : Frame → List Block → Run Outcome}
    (inside : ∀ (f' : Frame) (body : List Block), f'.globals = g →
      Traces g (run f' body) (run' f' body))
    (under : f.globals = g) (c : Call) :
    Traces g (Traced.enter run f c) (Interpreter.enter run' f c) := by
  refine scene_bind under fun notes st => ?_
  dsimp only
  generalize seen : (⟨⟨f, st.scope⟩, st.machine.world⟩ : Scene) = s
  rcases Interpreter.callee s c with e | ⟨head, b, values⟩
  · exact pure _ notes st
  · subst seen
    refine .within (fun n hn => Interpreter.bindParameters_locals ⟨f, st.scope⟩ values hn)
      (inside _ b.children ?_) fun o notes st' => .leave under c ⟨f, st.scope⟩ _ o notes st'
    rw [Interpreter.bindParameters_frame]
    exact under

/-- Calls, however deeply they are nested. -/
theorem calls (limits : Limits) (n : Nat) :
    Calls g (Traced.call limits n) (Interpreter.call limits n) := by
  induction n with
  | zero => exact fun f c under => pure _
  | succ n ih => exact fun f c under => enter (fun f' body under => blocks ih under none body) under c

/-- **Runs with notes stand for runs.** -/
theorem run (limits : Limits) (under : f.globals = g) (body : List Block) :
    Traces g (Traced.run limits f body) (Interpreter.run limits f body) :=
  blocks (calls limits _) under none body

end Traces

end Blockwork
