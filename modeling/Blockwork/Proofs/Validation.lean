import Blockwork.Proofs.Document.Blocks
import Blockwork.Proofs.Script
import Blockwork.Script

/-!
# What validation establishes

Validation goes through a script once and keeps the identities it has met.  A script without problems
is therefore one in which no identity occurs twice, across all its lines, and in which every block,
at any depth, has no problem of its own.

## What is load-bearing

The identities met after a tree are those met before and those of the tree (`Block.met_problemsFrom`),
so the whole of validation's bookkeeping is one statement: what has been met is pairwise distinct
(`Block.problemsFrom_eq_nil_iff`).  Decoding keeps the same list, and its lemmas ask for the same.
-/

namespace Blockwork

namespace Block

theorem idsAll_append (bs cs : List Block) : idsAll (bs ++ cs) = idsAll bs ++ idsAll cs := by
  rw [idsAll, preorderAll_append, List.map_append, idsAll, idsAll]

mutual

/-- The identities met after a tree. -/
theorem met_problemsFrom (seen : List BlockId) :
    ∀ b : Block, (problemsFrom seen b).2 = b.ids.reverse ++ seen
  | ⟨i, k, cs⟩ => by
      rw [problemsFrom, reverse_ids_append]
      exact met_problemsFromAll (i :: seen) cs

theorem met_problemsFromAll (seen : List BlockId) :
    ∀ bs : List Block, (problemsFromAll seen bs).2 = (idsAll bs).reverse ++ seen
  | [] => rfl
  | b :: bs => by
      have first := met_problemsFrom seen b
      have rest := met_problemsFromAll (problemsFrom seen b).2 bs
      rw [problemsFromAll, reverse_idsAll_cons_append, ← first]
      exact rest

end

mutual

/-- **A tree has no problem exactly if the identities met after it are distinct and no block of it
has a problem of its own.** -/
theorem problemsFrom_eq_nil_iff {seen : List BlockId} (distinct : seen.Nodup) :
    ∀ b : Block, (problemsFrom seen b).1 = [] ↔
      (b.ids.reverse ++ seen).Nodup ∧ ∀ n ∈ b.preorder, n.ownProblems = []
  | ⟨i, k, cs⟩ => by
      rw [problemsFrom, reverse_ids_append, preorder, List.forall_mem_cons]
      by_cases met : i ∈ seen
      · have twice : ¬ ((idsAll cs).reverse ++ i :: seen).Nodup := fun nodup =>
          (List.nodup_cons.mp nodup.of_append_right).1 met
        simp [met, twice]
      · have inner := problemsFromAll_eq_nil_iff (List.nodup_cons.mpr ⟨met, distinct⟩) cs
        simp only [List.contains_iff_mem, met, if_false, List.nil_append, List.append_eq_nil_iff,
          inner]
        exact and_left_comm

theorem problemsFromAll_eq_nil_iff {seen : List BlockId} (distinct : seen.Nodup) :
    ∀ bs : List Block, (problemsFromAll seen bs).1 = [] ↔
      ((idsAll bs).reverse ++ seen).Nodup ∧ ∀ n ∈ preorderAll bs, n.ownProblems = []
  | [] => by simp [problemsFromAll, idsAll, preorderAll, distinct]
  | b :: bs => by
      have first := problemsFrom_eq_nil_iff distinct b
      rw [problemsFromAll, reverse_idsAll_cons_append, preorderAll, List.forall_mem_append]
      dsimp only
      rw [List.append_eq_nil_iff, first, met_problemsFrom]
      by_cases new : (b.ids.reverse ++ seen).Nodup
      · rw [problemsFromAll_eq_nil_iff new bs]
        simp only [new, true_and]
        exact and_left_comm
      · have old : ¬ ((idsAll bs).reverse ++ (b.ids.reverse ++ seen)).Nodup :=
          fun nodup => new nodup.of_append_right
        simp [new, old]

end

end Block

namespace Script

/-- The identities met after the blocks of a line. -/
theorem met_blockProblems (seen : List BlockId) (names : List String) (bs : List Block) :
    (blockProblems seen names bs).2.1 = (Block.idsAll bs).reverse ++ seen := by
  induction bs generalizing seen names with
  | nil => rfl
  | cons b rest ih =>
      rw [blockProblems, Block.reverse_idsAll_cons_append, ← Block.met_problemsFrom]
      exact ih _ _

theorem sound_of_blockProblems {seen : List BlockId} {names : List String} {bs : List Block}
    (distinct : seen.Nodup) (none : (blockProblems seen names bs).1 = []) :
    ((Block.idsAll bs).reverse ++ seen).Nodup ∧
      ∀ n ∈ Block.preorderAll bs, n.ownProblems = [] := by
  induction bs generalizing seen names with
  | nil => simp [Block.idsAll, Block.preorderAll, distinct]
  | cons b rest ih =>
      rw [blockProblems] at none
      obtain ⟨own, later⟩ := List.append_eq_nil_iff.mp none
      obtain ⟨own, -⟩ := List.append_eq_nil_iff.mp own
      obtain ⟨new, own⟩ := (Block.problemsFrom_eq_nil_iff distinct b).mp own
      rw [← Block.met_problemsFrom] at new
      obtain ⟨all, others⟩ := ih new later
      rw [Block.met_problemsFrom, ← Block.reverse_idsAll_cons_append] at all
      rw [Block.preorderAll]
      exact ⟨all, List.forall_mem_append.mpr ⟨own, others⟩⟩

theorem sound_of_lineProblems {seen : List BlockId} {names : List String} {ls : List Line}
    (distinct : seen.Nodup) (none : lineProblems seen names ls = []) :
    ((Block.idsAll (ls.flatMap Line.blocks)).reverse ++ seen).Nodup ∧
      ∀ n ∈ Block.preorderAll (ls.flatMap Line.blocks), n.ownProblems = [] := by
  induction ls generalizing seen names with
  | nil => simp [Block.idsAll, Block.preorderAll, distinct]
  | cons l rest ih =>
      rw [lineProblems] at none
      obtain ⟨own, later⟩ := List.append_eq_nil_iff.mp none
      obtain ⟨-, own⟩ := List.append_eq_nil_iff.mp own
      obtain ⟨new, own⟩ := sound_of_blockProblems distinct own
      rw [← met_blockProblems seen names] at new
      obtain ⟨all, others⟩ := ih new later
      rw [met_blockProblems] at all
      rw [List.flatMap_cons, Block.preorderAll_append, Block.idsAll_append, List.reverse_append,
        List.append_assoc]
      exact ⟨all, List.forall_mem_append.mpr ⟨own, others⟩⟩

/-- **A valid script has distinct identities, and no block with a problem of its own.** -/
theorem sound_of_validate {s : Script} (valid : s.validate = .ok ()) :
    (Block.idsAll s.blocks).Nodup ∧ ∀ n ∈ Block.preorderAll s.blocks, n.ownProblems = [] := by
  have none : s.problems = [] := by
    rw [validate] at valid
    split at valid
    · assumption
    · cases valid
  obtain ⟨distinct, own⟩ := sound_of_lineProblems List.nodup_nil none
  rw [List.append_nil, List.nodup_reverse] at distinct
  exact ⟨distinct, own⟩

end Script

end Blockwork
