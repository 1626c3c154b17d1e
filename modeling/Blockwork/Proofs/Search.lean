import Blockwork.Proofs.Grammar
import Blockwork.Proofs.Script
import Mathlib.Data.List.Basic

/-!
# Looking for blocks

A tree is searched in three ways.  `Block.walk` goes through it with a work list, `Block.find` recurses
into the children and stops at the first block that it is looking for, and a script looks for a block in
all lines or for the line that has it.  They agree on the order (`Script.search_agrees`): a block before
its children, and the children from left to right.

## What is load-bearing

The order is stated by *places*.  A place is the way from the root to a node, the numbers of the children
that it goes through, and the pre-order is nothing but the alphabetical order of places: a way before
those that go on from it, and a lower number before a higher one.  `Block.places` has the places of a
tree, and the three lemmas about it say that they ascend, that there are no others, and that the nodes
found there are those of the recursive pre-order.  A list that ascends has everything once.
-/

namespace Blockwork

namespace Block

/-! ## Places -/

/-- The node at a place of a tree, if the tree goes on so far. -/
def at? : Block → List Nat → Option Block
  | b, [] => some b
  | b, i :: way => b.children[i]?.bind fun c => at? c way

mutual

/-- The places of a tree, those of the first child before those of the second. -/
def places : Block → List (List Nat)
  | ⟨_, _, cs⟩ => [] :: placesFrom 0 cs

/-- The places of children that are numbered from a given number on. -/
def placesFrom : Nat → List Block → List (List Nat)
  | _, [] => []
  | i, b :: bs => (places b).map (i :: ·) ++ placesFrom (i + 1) bs

end

mutual

/-- The places of a tree are those at which there is a node. -/
theorem mem_places_iff {way : List Nat} : ∀ {b : Block}, way ∈ b.places ↔ (b.at? way).isSome
  | ⟨i, k, cs⟩ => by
      rw [places, List.mem_cons, mem_placesFrom_iff]
      cases way with
      | nil => simp [at?]
      | cons j rest => simp [at?]

theorem mem_placesFrom_iff {way : List Nat} : ∀ {i : Nat} {bs : List Block},
    way ∈ placesFrom i bs ↔ ∃ j rest, way = (i + j) :: rest ∧ (bs[j]?.bind fun c => c.at? rest).isSome
  | i, [] => by simp [placesFrom]
  | i, b :: bs => by
      rw [placesFrom, List.mem_append, List.mem_map, mem_placesFrom_iff]
      constructor
      · rintro (⟨rest, inside, rfl⟩ | ⟨j, rest, rfl, found⟩)
        · exact ⟨0, rest, rfl, mem_places_iff.mp inside⟩
        · exact ⟨j + 1, rest, by rw [Nat.add_assoc, Nat.add_comm 1 j], found⟩
      · rintro ⟨_ | j, rest, rfl, found⟩
        · exact .inl ⟨rest, mem_places_iff.mpr found, rfl⟩
        · exact .inr ⟨j, rest, by rw [Nat.add_assoc, Nat.add_comm 1 j], found⟩

end

mutual

/-- Places ascend. -/
theorem pairwise_places : ∀ b : Block, b.places.Pairwise (· < ·)
  | ⟨i, k, cs⟩ => by
      rw [places, List.pairwise_cons]
      refine ⟨fun way inside => ?_, pairwise_placesFrom 0 cs⟩
      obtain ⟨j, rest, rfl, -⟩ := mem_placesFrom_iff.mp inside
      exact List.nil_lt_cons _ _

theorem pairwise_placesFrom : ∀ (i : Nat) (bs : List Block), (placesFrom i bs).Pairwise (· < ·)
  | _, [] => by
      rw [placesFrom]
      exact .nil
  | i, b :: bs => by
      rw [placesFrom, List.pairwise_append, List.pairwise_map]
      refine ⟨?_, pairwise_placesFrom (i + 1) bs, ?_⟩
      · exact (pairwise_places b).imp fun less => List.cons_lt_cons_iff.mpr (.inr ⟨rfl, less⟩)
      -- the places of the first tree have a lower number in front than those of the others
      · intro way first other later
        obtain ⟨rest, -, rfl⟩ := List.mem_map.mp first
        obtain ⟨j, rest', rfl, -⟩ := mem_placesFrom_iff.mp later
        exact List.cons_lt_cons_iff.mpr (.inl (by omega))

end

mutual

/-- Going through the places is going through the tree in pre-order. -/
theorem map_at?_places : ∀ b : Block, b.places.map b.at? = b.preorder.map some
  | ⟨i, k, cs⟩ => by
      rw [places, preorder, List.map_cons, List.map_cons, ← map_at?_placesFrom 0 cs]
      refine congrArg₂ _ rfl (List.map_congr_left fun way inside => ?_)
      obtain ⟨j, rest, rfl, -⟩ := mem_placesFrom_iff.mp inside
      simp [at?]

theorem map_at?_placesFrom : ∀ (i : Nat) (bs : List Block),
    ((placesFrom i bs).map fun way => (bs[way.headD 0 - i]?.bind fun c => c.at? way.tail)) =
      (preorderAll bs).map some
  | _, [] => by rw [placesFrom, preorderAll, List.map_nil, List.map_nil]
  | i, b :: bs => by
      rw [placesFrom, preorderAll, List.map_append, List.map_append, ← map_at?_places b,
        ← map_at?_placesFrom (i + 1) bs, List.map_map]
      refine congrArg₂ _ (List.map_congr_left fun way _ => ?_) (List.map_congr_left fun way inside => ?_)
      · simp
      · obtain ⟨j, rest, rfl, -⟩ := mem_placesFrom_iff.mp inside
        have next : i + 1 + j - i = j + 1 := by omega
        simp [next]

end

/-! ## Searching -/

mutual

/-- The search finds the first block in pre-order. -/
theorem find_eq (id : BlockId) : ∀ b : Block, b.find id = b.preorder.find? fun n => n.id == id
  | ⟨i, k, cs⟩ => by
      rw [find, preorder, List.find?_cons, findAll_eq]
      by_cases same : i = id
      · rw [if_pos same, beq_iff_eq.mpr same]
      · rw [if_neg same, beq_false_of_ne same]

theorem findAll_eq (id : BlockId) :
    ∀ bs : List Block, findAll id bs = (preorderAll bs).find? fun n => n.id == id
  | [] => by rw [findAll, preorderAll, List.find?_nil]
  | b :: bs => by
      rw [findAll, preorderAll, List.find?_append, find_eq, findAll_eq]
      cases b.preorder.find? fun n => n.id == id <;> rfl

end

/-- Trees searched one after another. -/
theorem findSome?_find (id : BlockId) (bs : List Block) :
    bs.findSome? (find id) = (preorderAll bs).find? fun n => n.id == id := by
  induction bs with
  | nil => rw [preorderAll, List.findSome?_nil, List.find?_nil]
  | cons b bs ih =>
      rw [List.findSome?_cons, preorderAll, List.find?_append, find_eq, ih]
      cases b.preorder.find? fun n => n.id == id <;> rfl

end Block

/-- The blocks of a line at every depth, tree after tree. -/
def Line.nodes (l : Line) : List Block := Block.preorderAll l.blocks

namespace Line

variable {l : Line} {id : BlockId}

/-- Whether one of the trees of a line has a block. -/
theorem any_isSome_find (l : Line) (id : BlockId) :
    (l.blocks.any fun b => (b.find id).isSome) = (l.nodes.find? fun n => n.id == id).isSome := by
  rw [nodes, ← Block.findSome?_find, List.isSome_findSome?]

theorem find?_nodes_eq_none_iff :
    (l.nodes.find? fun n => n.id == id) = none ↔ ∀ n ∈ l.nodes, n.id ≠ id := by
  simp [List.find?_eq_none]

end Line

namespace Script

/-- A script is searched line after line. -/
theorem findBlock_eq (s : Script) (id : BlockId) :
    s.findBlock id = s.lines.findSome? fun l => l.nodes.find? fun n => n.id == id := by
  rw [findBlock, blocks]
  induction s.lines with
  | nil => rw [List.flatMap_nil, List.findSome?_nil, List.findSome?_nil]
  | cons l ls ih =>
      rw [List.flatMap_cons, List.findSome?_append, List.findSome?_cons, ih, Block.findSome?_find,
        Line.nodes]
      cases (Block.preorderAll l.blocks).find? fun n => n.id == id <;> rfl

theorem lineOf_eq (s : Script) (id : BlockId) :
    s.lineOf id = s.lines.findIdx? fun l => (l.nodes.find? fun n => n.id == id).isSome := by
  rw [lineOf, funext fun l => Line.any_isSome_find l id]

/-- The index of the first entry for which there is a value, and the value: both are of the same
entry. -/
theorem findIdx?_findSome?_eq_some_iff {α β : Type} {f : α → Option β} {l : List α} {i : Nat} {v : β} :
    (l.findIdx? fun a => (f a).isSome) = some i ∧ l.findSome? f = some v ↔
      ∃ a, l[i]? = some a ∧ f a = some v ∧ ∀ a' ∈ l.take i, f a' = none := by
  induction l generalizing i with
  | nil => simp
  | cons a rest ih =>
      rw [List.findIdx?_cons, List.findSome?_cons]
      cases here : f a with
      | some w =>
          cases i with
          | zero => simp [here]
          | succ j => simp [here]
      | none =>
          cases i with
          | zero => simp [here]
          | succ j => simpa [here] using ih

/-- **The searches agree.**  The walk goes through a tree in the order of its places, each of them
once; the search of a tree finds the first block of that order; and where the search of a script finds
a block, the first line that has the identity is the line of the block, and the block found is the first
of that line. -/
theorem search_agrees (b : Block) (s : Script) (id : BlockId) :
    (b.walk = b.preorder ∧
      ∃ places : List (List Nat), places.Pairwise (· < ·) ∧
        (∀ way, way ∈ places ↔ (b.at? way).isSome) ∧ b.walk.map some = places.map b.at?) ∧
    b.find id = (b.walk.find? fun n => n.id == id) ∧
    ((s.findBlock id).isSome ↔ (s.lineOf id).isSome) ∧
    ∀ i n, s.lineOf id = some i ∧ s.findBlock id = some n ↔
      ∃ l, s.lines[i]? = some l ∧ (l.nodes.find? fun n => n.id == id) = some n ∧
        ∀ l' ∈ s.lines.take i, ∀ n' ∈ l'.nodes, n'.id ≠ id := by
  refine ⟨⟨b.walk_eq_preorder, b.places, b.pairwise_places, fun _ => Block.mem_places_iff, ?_⟩, ?_, ?_,
    fun i n => ?_⟩
  · rw [b.walk_eq_preorder, b.map_at?_places]
  · rw [b.walk_eq_preorder, b.find_eq]
  · rw [s.findBlock_eq, s.lineOf_eq, List.isSome_findSome?, List.findIdx?_isSome]
  · rw [s.lineOf_eq, s.findBlock_eq, findIdx?_findSome?_eq_some_iff]
    simp only [Line.find?_nodes_eq_none_iff]

end Script

end Blockwork
