import Blockwork.Proofs.Requirements
import Blockwork.Proofs.Validation

/-!
# The grammar of scripts

A script is well formed if its identities and its function names are pairwise distinct, every block
has what its instruction needs, children occur in control-flow blocks only, and siblings are in
order: an `ELSE` directly after an `IF`, an `EVENT` at the head of a line.  Validation accepts
exactly the well-formed scripts, and the problem it reports is a breach of the rule that it names,
by the block or the function that it carries.

`Script.WellFormed` and `Script.Breaks` are stated over the tree, by positions in lists of siblings
and over all blocks at once; neither knows in which order anything is gone through.

## What is load-bearing

* `Again`: what is met a second time by a walk that remembers what it met.  Identities and function
  names are both checked by it, the one threaded through a recursion over trees, the other through a
  list of names; for a walk that starts with nothing it is a repetition in what is walked through.
* `Block.mem_sequenceFrom_iff`: the type remembered from the sibling before is the type at the place
  before.
* `Script.mem_lineProblems_iff`: every problem is one of a block, of a list of siblings, of an
  identity or of a function name, and each of these is reported.
-/

namespace Blockwork

/-! ## Well-formed scripts -/

namespace Block

/-- Siblings in order: an `ELSE` directly follows an `IF`, and an `EVENT` heads a line. -/
structure Ordered (isLine : Bool) (siblings : List Block) : Prop where
  /-- Before an `ELSE` is an `IF`. -/
  else_ : ∀ i b, siblings[i]? = some b → b.blockType = .else_ →
    ∃ j a, i = j + 1 ∧ siblings[j]? = some a ∧ a.blockType = .if_
  /-- An `EVENT` is the first block of a line. -/
  event : ∀ i b, siblings[i]? = some b → b.blockType = .event → isLine ∧ i = 0

/-- A block that has what its instruction needs, and children only if it may. -/
structure Complete (b : Block) : Prop where
  /-- No required parameter is missing. -/
  present : ∀ name, ¬ b.instruction.Lacks name
  /-- Values are of the kind that their parameter takes. -/
  kinds : ∀ name kind v, b.instruction.Confines name kind v → v.StandsFor kind
  /-- Number literals are finite. -/
  numbers : ∀ name v raw, b.instruction.Holds name v → ¬ v.NonFinite raw
  /-- What one parameter asks of another is there. -/
  requirements : ∀ reason, ¬ b.instruction.Unmet reason
  /-- Only control-flow blocks have children. -/
  children : b.children ≠ [] → b.blockType.isControlFlow

/-- The name of the function that a block defines, if it defines one. -/
def functionName? (b : Block) : Option String :=
  match b.instruction with
  | .function head => some head.name
  | _ => none

end Block

namespace Block

theorem mem_preorderAll_of_mem_preorder {b t : Block} {ts : List Block} (tree : t ∈ ts)
    (inside : b ∈ t.preorder) : b ∈ preorderAll ts := by
  induction tree with
  | head rest =>
      rw [preorderAll]
      exact List.mem_append_left _ inside
  | tail u _ ih =>
      rw [preorderAll]
      exact List.mem_append_right _ ih

theorem mem_preorderAll_of_mem {b : Block} {bs : List Block} (inside : b ∈ bs) :
    b ∈ preorderAll bs :=
  mem_preorderAll_of_mem_preorder inside mem_preorder_self

mutual

theorem mem_preorder_of_child {b child : Block} (below : child ∈ b.children) :
    ∀ {t : Block}, b ∈ t.preorder → child ∈ t.preorder
  | ⟨i, k, cs⟩, inside => by
      rw [preorder] at inside ⊢
      rcases List.mem_cons.mp inside with rfl | deeper
      · exact List.mem_cons_of_mem _ (mem_preorderAll_of_mem below)
      · exact List.mem_cons_of_mem _ (mem_preorderAll_of_child below deeper)

/-- The children of a block in several trees are in them too. -/
theorem mem_preorderAll_of_child {b child : Block} (below : child ∈ b.children) :
    ∀ {ts : List Block}, b ∈ preorderAll ts → child ∈ preorderAll ts
  | [], inside => by
      rw [preorderAll] at inside
      cases inside
  | t :: ts, inside => by
      rw [preorderAll] at inside ⊢
      rcases List.mem_append.mp inside with first | rest
      · exact List.mem_append_left _ (mem_preorder_of_child below first)
      · exact List.mem_append_right _ (mem_preorderAll_of_child below rest)

end

end Block

namespace Script

/-- All blocks of a script, at every depth. -/
def nodes (s : Script) : List Block := Block.preorderAll s.blocks

/-- A well-formed script. -/
structure WellFormed (s : Script) : Prop where
  /-- No two blocks have one identity. -/
  ids : (s.nodes.map Block.id).Nodup
  /-- Every block has what it needs. -/
  blocks : ∀ b ∈ s.nodes, b.Complete
  /-- The blocks of a line are in order. -/
  lines : ∀ l ∈ s.lines, Block.Ordered true l.blocks
  /-- The children of a block are in order. -/
  children : ∀ b ∈ s.nodes, Block.Ordered false b.children
  /-- No two blocks define one function. -/
  functions : (s.nodes.filterMap Block.functionName?).Nodup

end Script

/-! ## Breaches -/

namespace Block

/-- What a problem says of a block: that this block, by its identity and its type, breaks a rule. -/
inductive Breaks (b : Block) : Problem → Prop
  | missing {name : String} : b.instruction.Lacks name →
      Breaks b (.missingParameter b.id b.blockType name)
  | kind {name : String} {kind : ValueKind} {v : Value} : b.instruction.Confines name kind v →
      ¬ v.StandsFor kind → Breaks b (.wrongValueKind b.id b.blockType name kind v.kind)
  | number {name raw : String} {v : Value} : b.instruction.Holds name v → v.NonFinite raw →
      Breaks b (.invalidParameter b.id b.blockType
        ("parameter '" ++ name ++ "' is not a finite number: " ++ raw))
  | requirement {reason : String} : b.instruction.Unmet reason →
      Breaks b (.invalidParameter b.id b.blockType reason)
  | children : b.children ≠ [] → ¬ b.blockType.isControlFlow →
      Breaks b (.unexpectedChildren b.id b.blockType)

/-- What a problem says of siblings: that the one it names is out of order. -/
inductive Disorders (isLine : Bool) (siblings : List Block) : Problem → Prop
  | else_ {i : Nat} {b : Block} : siblings[i]? = some b → b.blockType = .else_ →
      (¬ ∃ j a, i = j + 1 ∧ siblings[j]? = some a ∧ a.blockType = .if_) →
      Disorders isLine siblings (.danglingElse b.id)
  | event {i : Nat} {b : Block} : siblings[i]? = some b → b.blockType = .event →
      ¬ (isLine ∧ i = 0) → Disorders isLine siblings (.misplacedEvent b.id)

end Block

/-- What a problem says of a script: which rule is broken, and by what. -/
inductive Script.Breaks (s : Script) : Problem → Prop
  | block {b : Block} {p : Problem} : b ∈ s.nodes → b.Breaks p → Breaks s p
  | line {l : Line} {p : Problem} : l ∈ s.lines → Block.Disorders true l.blocks p → Breaks s p
  | children {b : Block} {p : Problem} : b ∈ s.nodes → Block.Disorders false b.children p → Breaks s p
  | id {i : BlockId} : List.Duplicate i (s.nodes.map Block.id) → Breaks s (.duplicateId i)
  | function {name : String} : List.Duplicate name (s.nodes.filterMap Block.functionName?) →
      Breaks s (.duplicateFunction name)

/-- Siblings are in order exactly if no problem can be had with them. -/
theorem Block.ordered_iff {isLine : Bool} {siblings : List Block} :
    Ordered isLine siblings ↔ ∀ p, ¬ Disorders isLine siblings p := by
  constructor
  · rintro ordered p (⟨here, type, alone⟩ | ⟨here, type, misplaced⟩)
    · exact alone (ordered.else_ _ _ here type)
    · exact misplaced (ordered.event _ _ here type)
  · intro none
    refine ⟨fun i b here type => ?_, fun i b here type => ?_⟩
    · by_contra alone
      exact none _ (.else_ here type alone)
    · by_contra misplaced
      exact none _ (.event here type misplaced)

/-- A block has what it needs exactly if no problem can be had with it. -/
theorem Block.complete_iff {b : Block} : b.Complete ↔ ∀ p, ¬ b.Breaks p := by
  constructor
  · rintro complete p (lacks | ⟨confined, unfit⟩ | ⟨held, infinite⟩ | unmet | ⟨some, leaf⟩)
    · exact complete.present _ lacks
    · exact unfit (complete.kinds _ _ _ confined)
    · exact complete.numbers _ _ _ held infinite
    · exact complete.requirements _ unmet
    · exact leaf (complete.children some)
  · intro none
    refine ⟨fun _ lacks => ?_, fun _ _ _ confined => ?_, fun _ _ _ held infinite => ?_,
      fun _ unmet => ?_, fun some => ?_⟩
    · exact none _ (.missing lacks)
    · by_contra unfit
      exact none _ (.kind confined unfit)
    · exact none _ (.number held infinite)
    · exact none _ (.requirement unmet)
    · by_contra leaf
      exact none _ (.children some leaf)

/-- **A script is well formed exactly if nothing breaks a rule.** -/
theorem Script.wellFormed_iff {s : Script} : s.WellFormed ↔ ∀ p, ¬ s.Breaks p := by
  constructor
  · rintro formed p (⟨inside, broken⟩ | ⟨inside, broken⟩ | ⟨inside, broken⟩ | twice | twice)
    · exact Block.complete_iff.mp (formed.blocks _ inside) _ broken
    · exact Block.ordered_iff.mp (formed.lines _ inside) _ broken
    · exact Block.ordered_iff.mp (formed.children _ inside) _ broken
    · exact List.nodup_iff_forall_not_duplicate.mp formed.ids _ twice
    · exact List.nodup_iff_forall_not_duplicate.mp formed.functions _ twice
  · intro none
    refine ⟨?_, fun b inside => ?_, fun l inside => ?_, fun b inside => ?_, ?_⟩
    · exact List.nodup_iff_forall_not_duplicate.mpr fun _ twice => none _ (.id twice)
    · exact Block.complete_iff.mpr fun _ broken => none _ (.block inside broken)
    · exact Block.ordered_iff.mpr fun _ broken => none _ (.line inside broken)
    · exact Block.ordered_iff.mpr fun _ broken => none _ (.children inside broken)
    · exact List.nodup_iff_forall_not_duplicate.mpr fun _ twice => none _ (.function twice)

/-! ## What is met again -/

/-- Whether an item of a list is met again by a walk through the list, given what was met before. -/
def Again {α : Type} (met : List α) : List α → α → Prop
  | [], _ => False
  | y :: rest, x => (x = y ∧ x ∈ met) ∨ Again (y :: met) rest x

section Again

variable {α : Type} {met l l' : List α} {x : α}

theorem again_append : Again met (l ++ l') x ↔ Again met l x ∨ Again (l.reverse ++ met) l' x := by
  induction l generalizing met with
  | nil => simp [Again]
  | cons y rest ih => simp [Again, ih, or_assoc]

theorem again_iff : Again met l x ↔ (x ∈ met ∧ x ∈ l) ∨ List.Duplicate x l := by
  induction l generalizing met with
  | nil => simp [Again]
  | cons y rest ih =>
      rw [Again, ih, List.duplicate_cons_iff]
      grind

/-- A walk that starts with nothing meets again what is repeated. -/
theorem again_nil_iff : Again [] l x ↔ List.Duplicate x l := by
  rw [again_iff]
  simp

end Again

/-! ## Problems of a block -/

namespace Block

variable {b : Block} {p : Problem}

/-- One parameter of the schema is missing though it is required, or it is of the wrong kind. -/
theorem specProblem?_eq_some_iff {params : Params} {spec : ParamSpec} :
    b.specProblem? params spec = some p ↔
      (params.get? spec.name = none ∧ spec.required ∧
        Problem.missingParameter b.id b.blockType spec.name = p) ∨
      ∃ v kind, params.get? spec.name = some (.value v) ∧ spec.shape = .value (some kind) ∧
        ¬ v.StandsFor kind ∧ Problem.wrongValueKind b.id b.blockType spec.name kind v.kind = p := by
  unfold specProblem?
  split
  · rename_i absent
    simp [absent]
  · rename_i v kind here shape
    simp [here, shape, ← Value.satisfies_iff]
  · rename_i absent other
    constructor
    · intro none
      cases none
    · rintro (⟨none, -⟩ | ⟨v, kind, here, shape, -⟩)
      · exact (absent none).elim
      · exact (other v kind here shape).elim

/-- A problem with a parameter that the schema lists. -/
theorem mem_shapes_iff :
    p ∈ b.blockType.schema.filterMap (b.specProblem? b.instruction.toParams) ↔
      (∃ name, b.instruction.Lacks name ∧ p = .missingParameter b.id b.blockType name) ∨
      ∃ name kind v, b.instruction.Confines name kind v ∧ ¬ v.StandsFor kind ∧
        p = .wrongValueKind b.id b.blockType name kind v.kind := by
  simp only [List.mem_filterMap, specProblem?_eq_some_iff, Instruction.lacks_iff_schema,
    Instruction.confines_iff_schema]
  constructor
  · rintro ⟨spec, listed, ⟨absent, required, rfl⟩ | ⟨v, kind, here, shape, unfit, rfl⟩⟩
    · exact .inl ⟨_, ⟨spec, listed, required, absent, rfl⟩, rfl⟩
    · exact .inr ⟨_, kind, v, ⟨spec, listed, here, rfl, shape.symm⟩, unfit, rfl⟩
  · rintro (⟨_, ⟨spec, listed, required, absent, rfl⟩, rfl⟩ |
      ⟨_, kind, v, ⟨spec, listed, here, rfl, shape⟩, unfit, rfl⟩)
    · exact ⟨spec, listed, .inl ⟨absent, required, rfl⟩⟩
    · exact ⟨spec, listed, .inr ⟨v, kind, here, shape.symm, unfit, rfl⟩⟩

/-- What is reported of a block's parameters is true of them. -/
theorem breaks_of_mem_paramProblems (reported : p ∈ b.paramProblems) : b.Breaks p := by
  rw [paramProblems, List.mem_append, List.mem_append, mem_shapes_iff] at reported
  rcases reported with
    (((⟨name, lacks, rfl⟩ | ⟨name, kind, v, confined, unfit, rfl⟩) | number) | conflict)
  · exact .missing lacks
  · exact .kind confined unfit
  · obtain ⟨⟨name, q⟩, here, found⟩ := List.mem_filterMap.mp number
    obtain ⟨raw, first, rfl⟩ := Option.map_eq_some_iff.mp found
    rw [Param.nonFinite?_eq] at first
    obtain ⟨v, inside, infinite⟩ := List.exists_of_findSome?_eq_some first
    have held : b.instruction.Holds name v :=
      Instruction.holds_iff.mpr ⟨q, (Table.mem_toList_iff _ _ _).mp here, inside⟩
    exact .number held (Value.nonFinite?_eq_some_iff.mp infinite)
  · obtain ⟨reason, found, rfl⟩ := Option.map_eq_some_iff.mp (Option.mem_toList.mp conflict)
    exact .requirement (Instruction.unmet_of_conflict? found)

/-- If nothing is reported of a block's parameters, they are what the instruction needs. -/
theorem complete_of_paramProblems (none : b.paramProblems = []) :
    (∀ name, ¬ b.instruction.Lacks name) ∧
    (∀ name kind v, b.instruction.Confines name kind v → v.StandsFor kind) ∧
    (∀ name v raw, b.instruction.Holds name v → ¬ v.NonFinite raw) ∧
    ∀ reason, ¬ b.instruction.Unmet reason := by
  rw [paramProblems, List.append_eq_nil_iff, List.append_eq_nil_iff] at none
  obtain ⟨⟨shapes, numbers⟩, conflict⟩ := none
  rw [List.eq_nil_iff_forall_not_mem] at shapes
  refine ⟨fun name lacks => ?_, fun name kind v confined => ?_, fun name v raw held infinite => ?_, ?_⟩
  · exact shapes _ (mem_shapes_iff.mpr (.inl ⟨name, lacks, rfl⟩))
  · by_contra unfit
    exact shapes _ (mem_shapes_iff.mpr (.inr ⟨name, kind, v, confined, unfit, rfl⟩))
  · obtain ⟨q, here, inside⟩ := Instruction.holds_iff.mp held
    have finite := List.filterMap_eq_nil_iff.mp numbers (name, q)
      ((Table.mem_toList_iff _ _ _).mpr here)
    rw [Option.map_eq_none_iff, Param.nonFinite?_eq, List.findSome?_eq_none_iff] at finite
    have found := finite v inside
    rw [Value.nonFinite?_eq_some_iff.mpr infinite] at found
    cases found
  · rw [Option.toList_eq_nil_iff, Option.map_eq_none_iff] at conflict
    exact Instruction.conflict?_eq_none_iff.mp conflict

/-! ## Problems of siblings -/

/-- The type of the sibling before a place, given the type of the one before all of them. -/
def typeBefore (previous : Option BlockType) (siblings : List Block) : Nat → Option BlockType
  | 0 => previous
  | i + 1 => siblings[i]?.map blockType

/-- The problems of siblings are those of the `ELSE`s and the `EVENT`s out of place. -/
theorem mem_sequenceFrom_iff {previous : Option BlockType} {mayBeEvent : Bool}
    {siblings : List Block} :
    p ∈ sequenceFrom previous mayBeEvent siblings ↔ ∃ i b, siblings[i]? = some b ∧
      ((b.blockType = .else_ ∧ typeBefore previous siblings i ≠ some .if_ ∧ p = .danglingElse b.id) ∨
        (b.blockType = .event ∧ ¬ (mayBeEvent ∧ i = 0) ∧ p = .misplacedEvent b.id)) := by
  induction siblings generalizing previous mayBeEvent with
  | nil => simp [sequenceFrom]
  | cons b rest ih =>
      have place (i : Nat) : typeBefore previous (b :: rest) (i + 1) =
          typeBefore (some b.blockType) rest i := by
        cases i <;> rfl
      rw [sequenceFrom, List.mem_append, ← Nat.or_exists_add_one, ih]
      refine or_congr ?_ ?_
      · simp only [List.getElem?_cons_zero, Option.some_inj, exists_eq_left', typeBefore, and_true]
        split
        · rename_i type
          by_cases follows : previous = some .if_ <;> simp [type, follows]
        · rename_i type
          cases mayBeEvent <;> simp [type]
        · rename_i notElse notEvent
          have notElse : b.blockType ≠ .else_ := notElse
          have notEvent : b.blockType ≠ .event := notEvent
          simp [notElse, notEvent]
      · simp [place]

/-- **What is reported of the order of siblings is exactly what is out of order.** -/
theorem mem_sequenceProblems_iff {isLine : Bool} {siblings : List Block} :
    p ∈ sequenceProblems isLine siblings ↔ Disorders isLine siblings p := by
  have before (i : Nat) : typeBefore none siblings i = some .if_ ↔
      ∃ j a, i = j + 1 ∧ siblings[j]? = some a ∧ a.blockType = .if_ := by
    cases i with
    | zero => simp [typeBefore]
    | succ j => simp [typeBefore]
  rw [sequenceProblems, mem_sequenceFrom_iff]
  constructor
  · rintro ⟨i, b, here, ⟨type, alone, rfl⟩ | ⟨type, misplaced, rfl⟩⟩
    · exact .else_ here type (mt (before i).mpr alone)
    · exact .event here type misplaced
  · rintro (⟨here, type, alone⟩ | ⟨here, type, misplaced⟩)
    · exact ⟨_, _, here, .inl ⟨type, mt (before _).mp alone, rfl⟩⟩
    · exact ⟨_, _, here, .inr ⟨type, misplaced, rfl⟩⟩

/-! ## Problems of trees -/

/-- What is reported of a block by itself is a breach by it or a disorder among its children. -/
theorem breaks_of_mem_ownProblems (reported : p ∈ b.ownProblems) :
    b.Breaks p ∨ Disorders false b.children p := by
  rw [ownProblems, List.mem_append, List.mem_append, mem_sequenceProblems_iff] at reported
  rcases reported with (params | leaf) | order
  · exact .inl (breaks_of_mem_paramProblems params)
  · rw [List.mem_ite_nil_right, List.mem_singleton] at leaf
    obtain ⟨children, rfl⟩ := leaf
    rw [Bool.and_eq_true, Bool.not_eq_true', List.isEmpty_eq_false_iff, Bool.not_eq_true'] at children
    exact .inl (.children children.1 (Bool.eq_false_iff.mp children.2))
  · exact .inr order

/-- A block of which nothing is reported has what it needs, and its children are in order. -/
theorem complete_of_ownProblems (none : b.ownProblems = []) :
    b.Complete ∧ Ordered false b.children := by
  rw [ownProblems, List.append_eq_nil_iff, List.append_eq_nil_iff] at none
  obtain ⟨⟨params, leaf⟩, order⟩ := none
  obtain ⟨present, kinds, numbers, requirements⟩ := complete_of_paramProblems params
  refine ⟨⟨present, kinds, numbers, requirements, ?_⟩, ordered_iff.mpr fun p disorder => ?_⟩
  · intro some
    by_contra other
    simp [some, BlockType.acceptsChildren, other] at leaf
  · rw [← mem_sequenceProblems_iff, order] at disorder
    cases disorder

mutual

/-- The problems of a tree are those of its blocks and those of the identities met again. -/
theorem mem_problemsFrom_iff {seen : List BlockId} :
    ∀ {b : Block}, p ∈ (problemsFrom seen b).1 ↔
      (∃ n ∈ b.preorder, p ∈ n.ownProblems) ∨ ∃ i, Again seen b.ids i ∧ p = .duplicateId i
  | ⟨i, k, cs⟩ => by
      have here : p ∈ (if seen.contains i then [Problem.duplicateId i] else []) ↔
          ∃ j, (j = i ∧ j ∈ seen) ∧ p = .duplicateId j := by
        simp
      rw [problemsFrom, preorder, ids_eq]
      simp only [List.mem_append, here, mem_problemsFromAll_iff, List.exists_mem_cons_iff, Again,
        or_and_right, exists_or]
      exact (or_congr_left or_comm).trans or_or_or_comm

theorem mem_problemsFromAll_iff {seen : List BlockId} :
    ∀ {bs : List Block}, p ∈ (problemsFromAll seen bs).1 ↔
      (∃ n ∈ preorderAll bs, p ∈ n.ownProblems) ∨
        ∃ i, Again seen (idsAll bs) i ∧ p = .duplicateId i
  | [] => by simp [problemsFromAll, preorderAll, idsAll, Again]
  | b :: bs => by
      rw [problemsFromAll, preorderAll, idsAll_cons]
      simp only [List.mem_append, mem_problemsFrom_iff, met_problemsFrom, mem_problemsFromAll_iff,
        again_append, or_and_right, exists_or]
      exact or_or_or_comm

end

end Block

namespace Script

variable {p : Problem}

/-- The names that a walk collects are those of the functions defined in the tree, in pre-order. -/
theorem names_functions (b : Block) :
    (b.functions.map fun f => f.1.name) = b.preorder.filterMap Block.functionName? := by
  rw [Block.functions_eq, List.map_filterMap]
  refine List.filterMap_congr fun n _ => ?_
  rw [Block.definition?, Block.functionName?]
  cases n.instruction <;> rfl

/-- The names met after some names. -/
theorem met_repeatedFunctions (seen names : List String) :
    (repeatedFunctions seen names).2 = names.reverse ++ seen := by
  induction names generalizing seen with
  | nil => rfl
  | cons n rest ih => simp [repeatedFunctions, ih]

/-- The problems of names are those of the names met again. -/
theorem mem_repeatedFunctions_iff {seen names : List String} :
    p ∈ (repeatedFunctions seen names).1 ↔ ∃ n, Again seen names n ∧ p = .duplicateFunction n := by
  induction names generalizing seen with
  | nil => simp [repeatedFunctions, Again]
  | cons n rest ih =>
      have here : p ∈ (if seen.contains n then [Problem.duplicateFunction n] else []) ↔
          ∃ m, (m = n ∧ m ∈ seen) ∧ p = .duplicateFunction m := by
        simp
      rw [repeatedFunctions]
      simp only [List.mem_append, here, ih, Again, or_and_right, exists_or]

/-- The problems of a line's blocks. -/
theorem mem_blockProblems_iff {seen : List BlockId} {names : List String} {bs : List Block} :
    p ∈ (blockProblems seen names bs).1 ↔
      (∃ n ∈ Block.preorderAll bs, p ∈ n.ownProblems) ∨
      (∃ i, Again seen (Block.idsAll bs) i ∧ p = .duplicateId i) ∨
      ∃ n, Again names ((Block.preorderAll bs).filterMap Block.functionName?) n ∧
        p = .duplicateFunction n := by
  induction bs generalizing seen names with
  | nil => simp [blockProblems, Block.preorderAll, Block.idsAll, Again]
  | cons b rest ih =>
      rw [blockProblems, Block.preorderAll, Block.idsAll_cons, List.filterMap_append]
      simp only [List.mem_append, Block.mem_problemsFrom_iff, Block.met_problemsFrom, ih,
        mem_repeatedFunctions_iff, met_repeatedFunctions, names_functions, again_append, or_and_right,
        exists_or]
      exact (or_congr_left or_assoc).trans (or_or_or_comm.trans (or_congr_right or_or_or_comm))

/-- The names met after a line's blocks. -/
theorem namesMet_blockProblems (seen : List BlockId) (names : List String) (bs : List Block) :
    (blockProblems seen names bs).2.2 =
      ((Block.preorderAll bs).filterMap Block.functionName?).reverse ++ names := by
  induction bs generalizing seen names with
  | nil => rfl
  | cons b rest ih =>
      rw [blockProblems, Block.preorderAll, List.filterMap_append, List.reverse_append,
        List.append_assoc, ← names_functions b, ← met_repeatedFunctions names]
      exact ih _ _

/-- **The problems of a script**: those of the order of its lines, those of its blocks, and those of
the identities and the function names that are met again. -/
theorem mem_lineProblems_iff {seen : List BlockId} {names : List String} {ls : List Line} :
    p ∈ lineProblems seen names ls ↔
      (∃ l ∈ ls, p ∈ Block.sequenceProblems true l.blocks) ∨
      (∃ n ∈ Block.preorderAll (ls.flatMap Line.blocks), p ∈ n.ownProblems) ∨
      (∃ i, Again seen (Block.idsAll (ls.flatMap Line.blocks)) i ∧ p = .duplicateId i) ∨
      ∃ n, Again names ((Block.preorderAll (ls.flatMap Line.blocks)).filterMap Block.functionName?) n ∧
        p = .duplicateFunction n := by
  induction ls generalizing seen names with
  | nil => simp [lineProblems, Block.preorderAll, Block.idsAll, Again]
  | cons l rest ih =>
      rw [lineProblems, List.flatMap_cons, Block.preorderAll_append, Block.idsAll_append,
        List.filterMap_append]
      simp only [List.mem_append, mem_blockProblems_iff, met_blockProblems, namesMet_blockProblems, ih,
        List.exists_mem_cons_iff, again_append, or_and_right, exists_or]
      exact or_or_or_comm.trans
        (or_congr_right (or_or_or_comm.trans (or_congr_right or_or_or_comm)))

/-- What is reported of a script is true of it. -/
theorem breaks_of_mem_problems {s : Script} (reported : p ∈ s.problems) : s.Breaks p := by
  rw [problems, mem_lineProblems_iff] at reported
  rcases reported with ⟨l, inside, order⟩ | ⟨b, inside, own⟩ | ⟨i, again, rfl⟩ | ⟨n, again, rfl⟩
  · exact .line inside (Block.mem_sequenceProblems_iff.mp order)
  · rcases Block.breaks_of_mem_ownProblems own with broken | disorder
    · exact .block inside broken
    · exact .children inside disorder
  · exact .id (again_nil_iff.mp again)
  · exact .function (again_nil_iff.mp again)

/-- A script of which nothing is reported is well formed. -/
theorem wellFormed_of_problems {s : Script} (none : s.problems = []) : s.WellFormed := by
  have absent (q : Problem) : q ∉ s.problems := by
    rw [none]
    exact List.not_mem_nil
  simp only [problems, mem_lineProblems_iff, not_or, not_exists, not_and] at absent
  have sound (b : Block) (inside : b ∈ s.nodes) : b.Complete ∧ Block.Ordered false b.children :=
    Block.complete_of_ownProblems
      (List.eq_nil_iff_forall_not_mem.mpr fun q => (absent q).2.1 b inside)
  refine ⟨?_, fun b inside => (sound b inside).1, fun l inside => ?_,
    fun b inside => (sound b inside).2, ?_⟩
  · rw [List.nodup_iff_forall_not_duplicate]
    intro i twice
    exact (absent (.duplicateId i)).2.2.1 i (again_nil_iff.mpr twice) rfl
  · rw [Block.ordered_iff]
    intro q disorder
    exact (absent q).1 l inside (Block.mem_sequenceProblems_iff.mpr disorder)
  · rw [List.nodup_iff_forall_not_duplicate]
    intro n twice
    exact (absent (.duplicateFunction n)).2.2.2 n (again_nil_iff.mpr twice) rfl

/-- **Validation accepts exactly the well-formed scripts, and what it reports is a breach**: of the
rule that the problem names, by the block or the function that it carries. -/
theorem validate_exact (s : Script) :
    (s.validate = .ok () ↔ s.WellFormed) ∧ ∀ p, s.validate = .error p → s.Breaks p := by
  cases found : s.problems with
  | nil =>
      have accepted : s.validate = .ok () := by rw [validate, found]
      refine ⟨iff_of_true accepted (wellFormed_of_problems found), fun p refused => ?_⟩
      rw [accepted] at refused
      cases refused
  | cons q rest =>
      have refused : s.validate = .error q := by rw [validate, found]
      have broken : s.Breaks q := by
        apply breaks_of_mem_problems
        rw [found]
        exact List.mem_cons_self ..
      refine ⟨iff_of_false ?_ fun formed => wellFormed_iff.mp formed q broken, fun p reported => ?_⟩
      · intro accepted
        rw [accepted] at refused
        cases refused
      · rw [refused, Except.error.injEq] at reported
        exact reported ▸ broken

end Script

end Blockwork
