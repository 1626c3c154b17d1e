import Blockwork.Proofs.Grammar
import Blockwork.Proofs.Machine.Deeds
import Blockwork.Proofs.Machine.Mirrors
import Blockwork.Proofs.Script
import Blockwork.Proofs.Text

/-!
# Which calls run a function

A function is defined under the name that is written in its block, and a call looks for its own name
without the blanks around it.  Validation sees to it that the names of a script's functions are pairwise
distinct, and it compares them as they are written.  So in a valid script every function whose name has no
blanks around it is run by exactly the calls that name it and give it as many arguments as it has
parameters (`Script.called_iff`).  A function whose name has blanks around it is valid too, and no call
runs it, not even one that has the name as it is written.

## What is load-bearing

* `Script.get?_functions_iff`: the table has the first definition of a name, and in a well-formed script
  that is the only one.
* `Interpreter.get?_bindParameters_param`: parameters are bound one after another, so each has its own
  argument only if no name comes twice.
-/

namespace Blockwork

/-! ## The table of a well-formed script -/

namespace Block

theorem flatMap_preorder (bs : List Block) : bs.flatMap preorder = preorderAll bs := by
  induction bs with
  | nil => rw [preorderAll, List.flatMap_nil]
  | cons b bs ih => rw [preorderAll, List.flatMap_cons, ih]

theorem defines_iff {name : String} {b : Block} : b.defines name = true ↔ b.functionName? = some name := by
  rw [defines, functionName?]
  cases b.instruction <;> simp

end Block

namespace Script

variable {s : Script} {name : String} {b b' : Block}

/-- A name has one definition. -/
theorem WellFormed.eq_of_functionName? (sound : s.WellFormed) (inside : b ∈ s.nodes)
    (inside' : b' ∈ s.nodes) (named : b.functionName? = some name) (named' : b'.functionName? = some name) :
    b = b' := by
  have apart := List.pairwise_filterMap.mp sound.functions
  have symmetric : Std.Symm fun a a' : Block =>
      ∀ n, a.functionName? = some n → ∀ n', a'.functionName? = some n' → n ≠ n' :=
    ⟨fun a a' differ n own n' own' => (differ n' own' n own).symm⟩
  by_contra other
  exact apart.forall inside inside' other name named name named' rfl

/-- **The table has every function of a well-formed script** under its name. -/
theorem get?_functions_iff (sound : s.WellFormed) :
    s.rebuildFunctions.functions.get? name = some b ↔ b ∈ s.nodes ∧ b.functionName? = some name := by
  have table : s.rebuildFunctions.functions.get? name = s.nodes.find? (Block.defines name) := by
    rw [nodes, ← Block.flatMap_preorder, ← get?_collectFunctions]
    rfl
  rw [table]
  constructor
  · intro found
    exact ⟨List.mem_of_find?_eq_some found, Block.defines_iff.mp (List.find?_some found)⟩
  · rintro ⟨inside, named⟩
    have some := List.find?_isSome.mpr ⟨b, inside, Block.defines_iff.mpr named⟩
    obtain ⟨b', found⟩ := Option.isSome_iff_exists.mp some
    have named' := Block.defines_iff.mp (List.find?_some found)
    rw [found, sound.eq_of_functionName? inside (List.mem_of_find?_eq_some found) named named']

end Script

/-! ## Parameters -/

namespace Interpreter

variable {c : Context} {parameters : List String} {values : List Datum} {n : String}

theorem get?_foldl_set_of_notMem (c : Context) (values : List Datum) (other : n ∉ parameters) :
    ((parameters.zip values).foldl (fun c p => c.set p.1 p.2) c).get? n = c.get? n := by
  induction parameters generalizing c values with
  | nil => rfl
  | cons p parameters ih =>
      rw [List.mem_cons, not_or] at other
      cases values with
      | nil => rfl
      | cons d values =>
          rw [List.zip_cons_cons, List.foldl_cons, ih _ _ other.2, Context.get?_set]
          exact if_neg (Ne.symm other.1)

/-- Each parameter has the value in its own place. -/
theorem get?_foldl_set (c : Context) (distinct : parameters.Nodup)
    (many : parameters.length ≤ values.length) {i : Nat} (here : parameters[i]? = some n) :
    ((parameters.zip values).foldl (fun c p => c.set p.1 p.2) c).get? n = values[i]? := by
  induction parameters generalizing c values i with
  | nil => cases here
  | cons p parameters ih =>
      obtain ⟨first, distinct⟩ := List.nodup_cons.mp distinct
      cases values with
      | nil => cases many
      | cons d values =>
          rw [List.zip_cons_cons, List.foldl_cons]
          cases i with
          | zero =>
              obtain rfl : p = n := Option.some.inj here
              rw [get?_foldl_set_of_notMem _ _ first, Context.get?_set]
              exact if_pos rfl
          | succ i => exact ih _ distinct (Nat.le_of_succ_le_succ many) here

end Interpreter

/-! ## Calls -/

open Interpreter

/-- The values of the arguments of a call. -/
def Call.values (c : Call) (s : Scene) : List Datum := (Argument.split c.arguments).map s.argument

/-- The context in which a call runs the body of a function. -/
def Call.inner (c : Call) (f : Frame) (st : RunState) (head : Function) : Context :=
  bindParameters ⟨f, st.scope⟩ head.parameters (c.values ⟨⟨f, st.scope⟩, st.machine.world⟩)

/-- A call runs the function of a block. -/
structure Call.Runs (limits : Limits) (f : Frame) (c : Call) (st : RunState) (head : Function)
    (b : Block) : Prop where
  /-- The block is what the call finds. -/
  found : callee ⟨⟨f, st.scope⟩, st.machine.world⟩ c =
    .ok (head, b, c.values ⟨⟨f, st.scope⟩, st.machine.world⟩)
  /-- The body is one call deeper than the caller, and otherwise where the caller is. -/
  frame : (c.inner f st head).frame = (Context.forCall ⟨f, st.scope⟩).frame
  /-- Each parameter has the value of the argument in its place. -/
  bound : ∀ (i : Nat) p, head.parameters[i]? = some p →
    (c.inner f st head).get? p = (c.values ⟨⟨f, st.scope⟩, st.machine.world⟩)[i]?
  /-- All other variables are those of the caller. -/
  others : ∀ n, n ∉ head.parameters → (c.inner f st head).get? n = Context.get? ⟨f, st.scope⟩ n
  /-- The children of the block are run, and nothing else. -/
  body : ∀ o st₁, (Interpreter.run limits (c.inner f st head).frame b.children).run
      ⟨(c.inner f st head).scope, st.machine⟩ = (o, st₁) →
    (call limits (callsLeft limits f) f c).run st =
      (leave f c ⟨f, st.scope⟩ (c.inner f st head).frame o).run st₁

namespace Call

variable {limits : Limits} {f : Frame} {c : Call} {st : RunState} {head : Function} {b : Block}

/-- A call runs the function of a block exactly if the frame has the block under the name of the call. -/
theorem runs_iff (room : f.callDepth < limits.maxCallDepth) (distinct : head.parameters.Nodup) :
    c.Runs limits f st head b ↔ f.functions.get? (Text.trim c.function) = some b ∧
      b.instruction = .function head ∧ (Argument.split c.arguments).length = head.parameters.length := by
  constructor
  · intro runs
    obtain ⟨entry, defined, arity, -⟩ := callee_eq_ok_iff.mp runs.found
    exact ⟨entry, defined, arity⟩
  · rintro ⟨entry, defined, arity⟩
    have found : callee ⟨⟨f, st.scope⟩, st.machine.world⟩ c =
        .ok (head, b, c.values ⟨⟨f, st.scope⟩, st.machine.world⟩) :=
      callee_eq_ok_iff.mpr ⟨entry, defined, arity, rfl⟩
    have frame : (c.inner f st head).frame = (Context.forCall ⟨f, st.scope⟩).frame :=
      bindParameters_frame ..
    have deeper : (c.inner f st head).frame.callDepth = f.callDepth + 1 := by
      rw [frame]
      rfl
    have many : head.parameters.length ≤ (c.values ⟨⟨f, st.scope⟩, st.machine.world⟩).length := by
      rw [Call.values, List.length_map, arity]
    refine ⟨found, frame, fun i p here => get?_foldl_set _ distinct many here,
      fun n other => get?_foldl_set_of_notMem _ _ other, fun o st₁ inside => ?_⟩
    show (f.caller limits f c).run st = _
    rw [Frame.caller_of_room room deeper]
    exact enter_of_ok found inside

/-- A call whose name the frame does not have fails, and nothing has changed. -/
theorem run_of_unknown (room : f.callDepth < limits.maxCallDepth)
    (unknown : f.functions.get? (Text.trim c.function) = none) :
    (call limits (callsLeft limits f) f c).run st =
      (.error (.unknown (.function (Text.trim c.function))), st) := by
  have refused : callee ⟨⟨f, st.scope⟩, st.machine.world⟩ c =
      .error (.unknown (.function (Text.trim c.function))) := by
    unfold callee
    dsimp only
    rw [unknown]
  have done : Does limits f (.call c) st [] (.error _, none) st := .refused room refused
  exact Run.outcome_eq done.sound

end Call

/-- **Which calls run a function.**  In every frame that has the functions of a valid script and room for a
call, a function is run by exactly the calls whose name, without the blanks around it, is the one the
function is defined under, and that have as many arguments as it has parameters.

So a call that names the function as it is defined runs it if there are no blanks around the name.  If there
are, no call runs the function.  One that names it as it is defined fails, unless another function is defined
under the name without the blanks. -/
theorem Script.called_iff {s : Script} (valid : s.validate = .ok ()) {b : Block} (inside : b ∈ s.nodes)
    {head : Function} (defined : b.instruction = .function head) {limits : Limits} {f : Frame}
    (table : f.functions = s.rebuildFunctions.functions) (room : f.callDepth < limits.maxCallDepth) :
    (∀ (c : Call) (st : RunState), c.Runs limits f st head b ↔ Text.trim c.function = head.name ∧
      (Argument.split c.arguments).length = head.parameters.length) ∧
    (Text.trim head.name = head.name → ∀ (c : Call) (st : RunState), c.function = head.name →
      (Argument.split c.arguments).length = head.parameters.length → c.Runs limits f st head b) ∧
    (Text.trim head.name ≠ head.name → (∀ (c : Call) (st : RunState), ¬ c.Runs limits f st head b) ∧
      ∀ (c : Call) (st : RunState), c.function = head.name →
        (∀ other ∈ s.nodes, other.functionName? ≠ some (Text.trim head.name)) →
        (call limits (callsLeft limits f) f c).run st =
          (.error (.unknown (.function (Text.trim head.name))), st)) := by
  have sound := (validate_exact s).1.mp valid
  have named : b.functionName? = some head.name := by rw [Block.functionName?, defined]
  have distinct : head.parameters.Nodup := by
    refine List.nodup_iff_forall_not_duplicate.mpr fun p twice => ?_
    have unmet : (Instruction.function head).Unmet _ := .declared twice
    rw [← defined] at unmet
    exact (sound.blocks b inside).requirements _ unmet
  have runs (c : Call) (st : RunState) : c.Runs limits f st head b ↔ Text.trim c.function = head.name ∧
      (Argument.split c.arguments).length = head.parameters.length := by
    rw [Call.runs_iff room distinct, table, get?_functions_iff sound, named, Option.some.injEq]
    constructor
    · rintro ⟨⟨-, same⟩, -, arity⟩
      exact ⟨same.symm, arity⟩
    · rintro ⟨same, arity⟩
      exact ⟨⟨inside, same.symm⟩, defined, arity⟩
  refine ⟨runs, fun trimmed c st called arity => ?_, fun blanks => ⟨fun c st ran => ?_, ?_⟩⟩
  · exact (runs c st).mpr ⟨called ▸ trimmed, arity⟩
  · obtain ⟨same, -⟩ := (runs c st).mp ran
    exact blanks (same ▸ Text.trim_trim c.function)
  · intro c st called alone
    have unknown : f.functions.get? (Text.trim c.function) = none := by
      rw [Option.eq_none_iff_forall_ne_some]
      intro other entry
      rw [table, get?_functions_iff sound, called] at entry
      exact alone other entry.1 entry.2
    rw [Call.run_of_unknown room unknown, called]

/-- A function with a plain name. -/
def plainFunction : Block :=
  ⟨⟨3⟩, .function { name := "greet", parameters := ["who"] },
    [⟨⟨4⟩, .message (some (.text "hi \x7bwho\x7d")), []⟩]⟩

/-- A function with blanks around its name. -/
def paddedFunction : Block := ⟨⟨5⟩, .function { name := " wave " }, [⟨⟨6⟩, .stopLoop, []⟩]⟩

/-- A script that defines both. -/
def greetings : Script :=
  { ownerId := ⟨1⟩
    ownerName := "ada"
    lastModified := ⟨0, 0⟩
    lines := [{ name := "greet", blocks := [⟨⟨2⟩, .event (some .join), []⟩, plainFunction, paddedFunction] }] }

/-- A frame that has its functions. -/
def greetingFrame : Frame :=
  { actor := ⟨1⟩
    target := .nobody
    functions := greetings.rebuildFunctions.functions
    logLimit := 8
    cancel := 0 }

/-- The script is valid.  A call runs the first function, and one that names the second fails. -/
theorem called_greetings : greetings.validate = .ok () ∧
    (∀ st, ({ function := "greet", arguments := "'bea'" } : Call).Runs {} greetingFrame st
      { name := "greet", parameters := ["who"] } plainFunction) ∧
    ∀ st, (call {} (callsLeft {} greetingFrame) greetingFrame { function := " wave " }).run st =
      (.error (.unknown (.function "wave")), st) := by
  have valid : greetings.validate = .ok () := by with_unfolding_all rfl
  have first : plainFunction ∈ greetings.nodes := List.mem_cons_of_mem _ (List.mem_cons_self ..)
  have second : paddedFunction ∈ greetings.nodes :=
    List.mem_cons_of_mem _ (List.mem_cons_of_mem _ (List.mem_cons_of_mem _ (List.mem_cons_self ..)))
  have room : greetingFrame.callDepth < ({} : Limits).maxCallDepth := by decide
  obtain ⟨-, runs, -⟩ := Script.called_iff valid first rfl rfl room
  obtain ⟨-, -, lost⟩ := Script.called_iff valid second rfl rfl room
  refine ⟨valid, fun st => runs (by decide) _ st rfl ?_, fun st => ?_⟩
  · with_unfolding_all rfl
  · exact (lost (by decide)).2 _ st rfl (by decide)

end Blockwork
