import Blockwork.Proofs.Table
import Blockwork.Script

/-!
# The function table of a script

The table is collected by a walk with a work list.  The walk visits a tree in pre-order
(`Block.walk_eq_preorder`), and an entry once made is not replaced, so under a name the table has the
first block of that name in line order and pre-order (`Script.get?_collectFunctions`).
-/

namespace Blockwork

namespace Block

theorem preorderAll_append (bs cs : List Block) :
    preorderAll (bs ++ cs) = preorderAll bs ++ preorderAll cs := by
  induction bs with
  | nil => rfl
  | cons b bs ih => rw [List.cons_append, preorderAll, preorderAll, ih, List.append_assoc]

/-- A work list is visited tree after tree, each in pre-order. -/
theorem visit_eq_preorderAll (work : List Block) : visit work = preorderAll work := by
  induction work using visit.induct with
  | case1 => rw [visit, preorderAll]
  | case2 b rest ih =>
      obtain ⟨i, k, cs⟩ := b
      rw [visit, ih, preorderAll_append, preorderAll, preorder, List.cons_append]

theorem walk_eq_preorder (b : Block) : b.walk = b.preorder := by
  rw [walk, visit_eq_preorderAll, preorderAll, preorderAll, List.append_nil]

/-- The function that a block defines, if it defines one. -/
def definition? (n : Block) : Option (Function × Block) :=
  match n.instruction with
  | .function head => some (head, n)
  | _ => none

theorem functions_eq (b : Block) : b.functions = b.preorder.filterMap definition? := by
  rw [functions, walk_eq_preorder]
  rfl

/-- Whether a block defines the function of a name. -/
def defines (name : String) (b : Block) : Bool :=
  match b.instruction with
  | .function head => head.name == name
  | _ => false

end Block

namespace Script

/-- An entry that is made is not replaced. -/
theorem get?_foldl_insertNew (l : List (Function × Block)) (t : Table String Block) (name : String) :
    (l.foldl (fun t f => t.insertNew f.1.name f.2) t).get? name =
      (t.get? name).or ((l.find? fun f => f.1.name == name).map Prod.snd) := by
  induction l generalizing t with
  | nil => simp
  | cons f rest ih =>
      rw [List.foldl_cons, ih, Table.insertNew]
      by_cases taken : t.contains f.1.name
      · rw [if_pos taken]
        by_cases same : f.1.name = name
        · obtain ⟨b, here⟩ := Table.contains_iff.mp taken
          rw [← same, here, Option.some_or, Option.some_or]
        · rw [List.find?_cons_of_neg (by simpa using same)]
      · rw [if_neg taken, Table.get?_insert]
        by_cases same : f.1.name = name
        · have free := Table.contains_eq_false_iff.mp (Bool.eq_false_iff.mpr taken)
          rw [if_pos same, List.find?_cons_of_pos (by simpa using same), ← same, free]
          rfl
        · rw [if_neg same, List.find?_cons_of_neg (by simpa using same)]

/-- The functions that blocks define, looked up by name. -/
theorem find?_definitions (bs : List Block) (name : String) :
    ((bs.filterMap Block.definition?).find? fun f => f.1.name == name).map Prod.snd =
      bs.find? (Block.defines name) := by
  induction bs with
  | nil => rfl
  | cons b rest ih =>
      rw [List.filterMap_cons, List.find?_cons, Block.definition?, Block.defines]
      cases b.instruction with
      | function head =>
          by_cases same : head.name == name
          · simp [same]
          · simpa [same] using ih
      | _ => exact ih

/-- **A function table has the first definition of every name**, in line order and pre-order. -/
theorem get?_collectFunctions (blocks : List Block) (name : String) :
    (collectFunctions blocks).get? name =
      (blocks.flatMap Block.preorder).find? (Block.defines name) := by
  have heads : blocks.flatMap Block.functions =
      (blocks.flatMap Block.preorder).filterMap Block.definition? := by
    rw [List.filterMap_flatMap, funext Block.functions_eq]
  have nothing : ({} : Table String Block).get? name = none := rfl
  rw [collectFunctions, get?_foldl_insertNew, nothing, Option.none_or, heads,
    find?_definitions]

end Script

end Blockwork
