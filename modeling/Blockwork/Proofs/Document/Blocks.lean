import Blockwork.Document.Block
import Blockwork.Proofs.Document.Values

/-!
# Block trees read back from documents

Encoding a block tree and decoding the document gives the tree back, in its normal spelling: a call
whose result has no name has no result, and a loop waits for at least one tick.  The tree may be one
that validation would refuse; what it takes is that no identity occurs twice, since decoding refuses
that, and that compound values are finite, since a document has no numbers but finite ones.

## What is load-bearing

* `Instruction.suits_toParams`: every parameter of every instruction has the shape its block type's
  schema lists it with, so decoding reads it by the rule it was written by.
* `decode_ofBlock`: decoding threads the identities met before through the tree.  The invariant is
  that after a tree they are those of before and those of the tree, and nothing else, so it takes
  only that this list has no repetition.
-/

namespace Blockwork

open Params in
/-- Every parameter of an instruction has the shape that its schema gives it. -/
theorem Instruction.suits_toParams (i : Instruction) : i.toParams.Suits i.blockType.schema := by
  have small (n : UInt32) : (n.toNat : Int) ≤ Param.greatestInteger := by
    have bound := n.toNat_lt
    have top : Param.greatestInteger = 9223372036854775807 := rfl
    omega
  cases i with
  | else_ | stopLoop | break_ | continue_ => exact .empty
  | event kind => exact .putName .empty fun _ => .name
  | if_ c => exact suits_putCondition c
  | message v | teleport v | delay v | return_ v => exact .putValue .empty fun _ _ => .value
  | target t =>
      refine .putValue (.putValue (.putName .empty ?_) ?_) ?_
      · exact fun _ => .name
      · exact fun _ _ => .value
      · exact fun _ _ => .value
  | function f => exact .insertUnless (.putText .empty .text) _ .names
  | callFunction c =>
      obtain ⟨function, arguments, result⟩ := c
      cases result with
      | none => exact .putText (.putText .empty .text) .text
      | some r => exact .putText (.putText (.putText .empty .text) .text) .text
  | variable_ v =>
      refine .putValue (.putValue (.putText (.putName .empty ?_) .text) ?_) ?_
      · exact fun _ => .name
      · exact fun _ _ => .value
      · exact fun _ _ => .value
  | math m =>
      refine .putText (.putValue (.putValue (.putName .empty ?_) ?_) ?_) .text
      · exact fun _ => .name
      · exact fun _ _ => .value
      · exact fun _ _ => .value
  | text t =>
      refine .putText (.putValue (.putValue (.putValue (.putName .empty ?_) ?_) ?_) ?_) .text
      · exact fun _ => .name
      · exact fun _ _ => .value
      · exact fun _ _ => .value
      · exact fun _ _ => .value
  | sideEffect s => exact .insertUnless (.putText .empty .text) _ .values
  | repeat_ r =>
      obtain ⟨mode, count, list, condition, isAsync, interval, maxIterations⟩ := r
      have start : Suits (BlockType.schema .repeat_)
          (((({} : Params).putName "mode" mode).putValue "count" count).putValue "list" list) := by
        refine .putValue (.putValue (.putName .empty ?_) ?_) ?_
        · exact fun _ => .name
        · exact fun _ _ => .value
        · exact fun _ _ => .value
      have asked : Suits (BlockType.schema .repeat_) (toParams (.repeat_ ⟨mode, count, list, condition,
          isAsync, interval, none⟩)) := by
        cases condition with
        | none =>
            refine .insertUnless (.insertIf start _ ?_) _ ?_
            · exact .bool
            · exact .integer (small interval)
        | some c =>
            refine .insertUnless (.insertIf (.insert start ?_) _ ?_) _ ?_
            · exact .condition
            · exact .bool
            · exact .integer (small interval)
      cases maxIterations with
      | none => exact asked
      | some n => exact .insert asked (.integer (small n))

namespace Instruction

/-- The values in an instruction, those in its condition and among its arguments included. -/
def contents (i : Instruction) : List Value := (Table.values i.toParams).flatMap Param.contents

theorem contents_toParams (i : Instruction) :
    i.toParams.Each fun _ q => ∀ v ∈ q.contents, v ∈ i.contents := by
  intro k q here v inside
  have listed : q ∈ Table.values i.toParams :=
    List.mem_map.mpr ⟨(k, q), (Table.mem_toList_iff i.toParams k q).mpr here, rfl⟩
  exact List.mem_flatMap.mpr ⟨q, listed, inside⟩

/-- **The parameters of an instruction are read back from their document.** -/
theorem ofJson_toParams (block : BlockId) {i : Instruction} (finite : ∀ v ∈ i.contents, v.IsFinite) :
    Params.ofJson block i.blockType.schema (i.toParams.map Param.toJson).toList = .ok i.toParams :=
  Params.ofJson_toJson block i.suits_toParams fun k q here v inside =>
    finite v (i.contents_toParams k q here v inside)

theorem mem_contents_iff {i : Instruction} {v : Value} :
    v ∈ i.contents ↔ ∃ k q, i.toParams.get? k = some q ∧ v ∈ q.contents := by
  constructor
  · intro inside
    obtain ⟨q, listed, inner⟩ := List.mem_flatMap.mp inside
    obtain ⟨⟨k, _⟩, entry, rfl⟩ := List.mem_map.mp listed
    exact ⟨k, _, (Table.mem_toList_iff i.toParams k _).mp entry, inner⟩
  · rintro ⟨k, q, here, inner⟩
    exact i.contents_toParams k q here v inner

/-- A normal spelling is respelled as itself. -/
theorem normal_normal (i : Instruction) : i.normal.normal = i.normal := by
  cases i with
  | callFunction c => by_cases blank : c.result = some "" <;> simp [normal, blank]
  | repeat_ r => by_cases zero : r.interval = 0 <;> simp [normal, zero]
  | _ => rfl

/-- Respelling an instruction changes none of its values. -/
theorem contents_normal {i : Instruction} {v : Value} (h : v ∈ i.normal.contents) : v ∈ i.contents := by
  obtain ⟨k, q, here, inner⟩ := mem_contents_iff.mp h
  cases i with
  | callFunction c =>
      obtain ⟨function, arguments, result⟩ := c
      refine mem_contents_iff.mpr ⟨k, q, ?_, inner⟩
      rw [← here]
      by_cases blank : result = some ""
      · simp [normal, toParams, blank]
      · simp [normal, blank]
  | repeat_ r =>
      obtain ⟨mode, count, list, condition, isAsync, interval, maxIterations⟩ := r
      refine mem_contents_iff.mpr ⟨k, q, ?_, inner⟩
      rw [← here]
      by_cases zero : interval = 0
      · have other : "interval" ≠ k := by
          rintro rfl
          have absent : (normal (.repeat_ ⟨mode, count, list, condition, isAsync, interval,
              maxIterations⟩)).toParams.get? "interval" = none := by
            cases condition <;> cases maxIterations <;>
              simp [normal, toParams, zero, Table.get?_insert]
          rw [absent] at here
          cases here
        cases condition <;> cases maxIterations <;>
          simp [normal, toParams, zero, Table.get?_insert, other]
      · simp [normal, zero]
  | _ => exact h

end Instruction

namespace Block

mutual

/-- The tree with every instruction in its normal spelling. -/
def normal : Block → Block
  | ⟨i, k, cs⟩ => ⟨i, k.normal, normalAll cs⟩

/-- Several trees with every instruction in its normal spelling. -/
def normalAll : List Block → List Block
  | [] => []
  | b :: bs => normal b :: normalAll bs

end

/-- The identities in a tree, in pre-order. -/
def ids (b : Block) : List BlockId := b.preorder.map Block.id

/-- The identities in several trees, in pre-order. -/
def idsAll (bs : List Block) : List BlockId := (preorderAll bs).map Block.id

/-- A tree whose compound values are finite. -/
def IsFinite (b : Block) : Prop := ∀ n ∈ b.preorder, ∀ v ∈ n.instruction.contents, v.IsFinite

/-- Trees whose compound values are finite. -/
def AreFinite (bs : List Block) : Prop :=
  ∀ n ∈ preorderAll bs, ∀ v ∈ n.instruction.contents, v.IsFinite

theorem ids_eq (i : BlockId) (k : Instruction) (cs : List Block) :
    ids ⟨i, k, cs⟩ = i :: idsAll cs := by
  rw [ids, preorder, List.map_cons, idsAll]

theorem idsAll_cons (b : Block) (bs : List Block) : idsAll (b :: bs) = b.ids ++ idsAll bs := by
  rw [idsAll, preorderAll, List.map_append, ids, idsAll]

/-- The identities met after a block are those met after it alone and then after its children. -/
theorem reverse_ids_append (i : BlockId) (k : Instruction) (cs : List Block) (seen : List BlockId) :
    (ids ⟨i, k, cs⟩).reverse ++ seen = (idsAll cs).reverse ++ i :: seen := by
  rw [ids_eq, List.reverse_cons, List.append_assoc, List.singleton_append]

/-- The identities met after several trees are those met after the first and then the others. -/
theorem reverse_idsAll_cons_append (b : Block) (bs : List Block) (seen : List BlockId) :
    (idsAll (b :: bs)).reverse ++ seen = (idsAll bs).reverse ++ (b.ids.reverse ++ seen) := by
  rw [idsAll_cons, List.reverse_append, List.append_assoc]

theorem mem_preorder_self {b : Block} : b ∈ b.preorder := by
  obtain ⟨i, k, cs⟩ := b
  rw [preorder]
  exact List.mem_cons_self ..

theorem IsFinite.children {i : BlockId} {k : Instruction} {cs : List Block}
    (h : IsFinite ⟨i, k, cs⟩) : AreFinite cs := by
  intro n inside
  exact h n (by rw [preorder]; exact List.mem_cons_of_mem _ inside)

theorem AreFinite.head {b : Block} {bs : List Block} (h : AreFinite (b :: bs)) : b.IsFinite := by
  intro n inside
  exact h n (by rw [preorderAll]; exact List.mem_append_left _ inside)

theorem AreFinite.tail {b : Block} {bs : List Block} (h : AreFinite (b :: bs)) : AreFinite bs := by
  intro n inside
  exact h n (by rw [preorderAll]; exact List.mem_append_right _ inside)

mutual

/-- Respelling goes block by block. -/
theorem preorder_normal : ∀ b : Block, b.normal.preorder = b.preorder.map normal
  | ⟨i, k, cs⟩ => by rw [normal, preorder, preorder, List.map_cons, preorderAll_normalAll cs, normal]

theorem preorderAll_normalAll :
    ∀ bs : List Block, preorderAll (normalAll bs) = (preorderAll bs).map normal
  | [] => rfl
  | b :: bs => by
      rw [normalAll, preorderAll, preorderAll, List.map_append, preorder_normal b,
        preorderAll_normalAll bs]

end

theorem normal_id (b : Block) : b.normal.id = b.id := by
  obtain ⟨i, k, cs⟩ := b
  rw [normal]

theorem normal_instruction (b : Block) : b.normal.instruction = b.instruction.normal := by
  obtain ⟨i, k, cs⟩ := b
  rw [normal]

theorem ids_normal (b : Block) : b.normal.ids = b.ids := by
  rw [ids, preorder_normal, List.map_map, ids]
  exact List.map_congr_left fun n _ => n.normal_id

theorem IsFinite.normal {b : Block} (h : b.IsFinite) : b.normal.IsFinite := by
  intro n inside v hv
  rw [preorder_normal] at inside
  obtain ⟨m, original, rfl⟩ := List.mem_map.mp inside
  rw [normal_instruction] at hv
  exact h m original v (Instruction.contents_normal hv)

mutual

theorem normal_normal : ∀ b : Block, b.normal.normal = b.normal
  | ⟨i, k, cs⟩ => by rw [normal, normal, k.normal_normal, normalAll_normalAll cs]

theorem normalAll_normalAll : ∀ bs : List Block, normalAll (normalAll bs) = normalAll bs
  | [] => rfl
  | b :: bs => by rw [normalAll, normalAll, normal_normal b, normalAll_normalAll bs]

end

end Block

namespace BlockDocument

mutual

/-- Decoding the document of a tree, given the identities met before. -/
theorem decode_ofBlock (seen : List BlockId) :
    ∀ {b : Block}, (b.ids.reverse ++ seen).Nodup → b.IsFinite →
      decode seen (ofBlock b) = .ok (b.normal, b.ids.reverse ++ seen)
  | ⟨i, k, cs⟩, distinct, finite => by
      rw [Block.reverse_ids_append] at distinct ⊢
      have inner := decodeAll_ofBlocks (i :: seen) distinct finite.children
      have unseen : seen.contains i = false := by
        simpa using (List.nodup_cons.mp distinct.of_append_right).1
      have params := k.ofJson_toParams i (finite ⟨i, k, cs⟩ Block.mem_preorder_self)
      rw [ofBlock, decode, BlockType.ofName?_name]
      simp only [unseen, params, inner, k.ofParams_toParams, Block.normal]
      simp

theorem decodeAll_ofBlocks (seen : List BlockId) :
    ∀ {bs : List Block}, ((Block.idsAll bs).reverse ++ seen).Nodup → Block.AreFinite bs →
      decodeAll seen (ofBlocks bs) = .ok (Block.normalAll bs, (Block.idsAll bs).reverse ++ seen)
  | [], _, _ => rfl
  | b :: bs, distinct, finite => by
      rw [Block.reverse_idsAll_cons_append] at distinct ⊢
      have first := decode_ofBlock seen distinct.of_append_right finite.head
      have rest := decodeAll_ofBlocks (b.ids.reverse ++ seen) distinct finite.tail
      rw [ofBlocks, decodeAll, first]
      simp only [rest, Block.normalAll]

end

mutual

/-- Trees with one document differ in spelling only. -/
theorem normal_eq_of_ofBlock_eq :
    ∀ {b c : Block}, b.IsFinite → c.IsFinite → ofBlock b = ofBlock c → b.normal = c.normal
  | ⟨i, k, cs⟩, ⟨j, l, ds⟩, finite, finite', same => by
      rw [ofBlock, ofBlock, mk.injEq] at same
      obtain ⟨rfl, type, parameters, children⟩ := same
      have types : k.blockType = l.blockType := by
        rw [← Option.some_inj, ← BlockType.ofName?_name, type, BlockType.ofName?_name]
      have left := k.ofJson_toParams i (finite ⟨i, k, cs⟩ Block.mem_preorder_self)
      have right := l.ofJson_toParams i (finite' ⟨i, l, ds⟩ Block.mem_preorder_self)
      rw [parameters, types, right, Except.ok.injEq] at left
      have instructions : k.normal = l.normal := by
        rw [← k.ofParams_toParams, ← l.ofParams_toParams, types, left]
      have inner := normalAll_eq_of_ofBlocks_eq finite.children finite'.children children
      rw [Block.normal, Block.normal, instructions, inner]

theorem normalAll_eq_of_ofBlocks_eq :
    ∀ {bs cs : List Block}, Block.AreFinite bs → Block.AreFinite cs → ofBlocks bs = ofBlocks cs →
      Block.normalAll bs = Block.normalAll cs
  | [], [], _, _, _ => rfl
  | [], c :: cs, _, _, same => nomatch same
  | b :: bs, [], _, _, same => nomatch same
  | b :: bs, c :: cs, finite, finite', same => by
      rw [ofBlocks, ofBlocks, List.cons.injEq] at same
      have first := normal_eq_of_ofBlock_eq finite.head finite'.head same.1
      have rest := normalAll_eq_of_ofBlocks_eq finite.tail finite'.tail same.2
      rw [Block.normalAll, Block.normalAll, first, rest]

end

theorem toBlock_ofBlock {b : Block} (distinct : b.ids.Nodup) (finite : b.IsFinite) :
    (ofBlock b).toBlock = .ok b.normal := by
  have read := decode_ofBlock [] (by simpa using distinct) finite
  rw [toBlock, read]
  rfl

/-- **A block tree is read back from its document, in its normal spelling.**  So a normal tree is
determined by its document, and what has been read once is read back unchanged from then on. -/
theorem read_back {b : Block} (distinct : b.ids.Nodup) (finite : b.IsFinite) :
    (ofBlock b).toBlock = .ok b.normal ∧
      (∀ c : Block, c.IsFinite → b.normal = b → c.normal = c → ofBlock b = ofBlock c → b = c) ∧
      (ofBlock b.normal).toBlock = .ok b.normal := by
  refine ⟨toBlock_ofBlock distinct finite, ?_, ?_⟩
  · intro c finite' same same' documents
    rw [← same, ← same', normal_eq_of_ofBlock_eq finite finite' documents]
  · have distinct' : b.normal.ids.Nodup := by rwa [b.ids_normal]
    have again := toBlock_ofBlock distinct' (Block.IsFinite.normal finite)
    rwa [b.normal_normal] at again

/-- A loop without a wait around a call whose result has no name, and a journey. -/
def detour : Block :=
  ⟨⟨1⟩, .repeat_ { mode := some .times, count := some (.text "2"), interval := 0 },
    [⟨⟨2⟩, .callFunction { function := "greet", result := some "" }, []⟩,
     ⟨⟨3⟩, .teleport (some (.location { x := 0.5, yaw := 90 })), []⟩]⟩

theorem isFinite_detour : detour.IsFinite := by
  have contents : detour.preorder.flatMap (fun n => n.instruction.contents) =
      [.text "2", .location { x := 0.5, yaw := 90 }] := rfl
  intro n inside v hv
  have listed := contents ▸ List.mem_flatMap.mpr ⟨n, inside, hv⟩
  rcases List.mem_pair.mp listed with rfl | rfl
  · constructor <;> exact fun _ none => nomatch none
  · constructor <;> simp only [Value.doubles, Value.singles, List.forall_mem_cons] <;> decide +kernel

theorem read_back_detour : detour.ids.Nodup ∧ detour.IsFinite ∧
    (ofBlock detour).toBlock = .ok
      ⟨⟨1⟩, .repeat_ { mode := some .times, count := some (.text "2"), interval := 1 },
        [⟨⟨2⟩, .callFunction { function := "greet" }, []⟩,
         ⟨⟨3⟩, .teleport (some (.location { x := 0.5, yaw := 90 })), []⟩]⟩ := by
  have distinct : detour.ids.Nodup := by decide
  exact ⟨distinct, isFinite_detour, (read_back distinct isFinite_detour).1⟩

end BlockDocument

end Blockwork
