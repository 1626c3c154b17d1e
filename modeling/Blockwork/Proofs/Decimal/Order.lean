import Mathlib.Algebra.Order.Group.Unbundled.Int
import Mathlib.Data.Prod.Lex
import Mathlib.Order.Compare

/-!
# The order of numbers

Every comparison with what is not a number is false, so the comparisons of doubles are no order.  Among
numbers they are one: a number has a *rank* in a linear order, and it comes before another exactly if its
rank does (`Binary.lt_iff`, `Binary.le_iff`).  Only the two zeros share a rank.

## What is load-bearing

Numbers are compared by their unpacked forms, class by class and then by exponent and mantissa.  The rank
is read off the unpacked form in the same way, and `Binary.compare_eq_rank` says that the two comparisons
are one.
-/

namespace Blockwork.Binary

open Float.Model Float.Model.UnpackedFloat

/-- The rank of an unpacked form: its class first, then its exponent and mantissa. -/
def unpackedRank : UnpackedFloat → ℤ ×ₗ ℤ ×ₗ ℤ
  | .infinity .negative => toLex (-2, toLex (0, 0))
  | .finite .negative m e _ => toLex (-1, toLex (-e, -m))
  | .zero _ | .notANumber => toLex (0, toLex (0, 0))
  | .finite .positive m e _ => toLex (1, toLex (e, m))
  | .infinity .positive => toLex (2, toLex (0, 0))

theorem compare_neg (x y : ℤ) : compare (-x) (-y) = (compare x y).swap := by
  have flips : StrictAnti fun z : ℤ => -z := fun _ _ => Int.neg_lt_neg
  rw [← cmp_eq_compare, ← cmp_eq_compare, cmp_swap]
  exact flips.cmp_map_eq x y

theorem compare_cast (m n : Nat) : compare (m : ℤ) n = compare m n := by
  rw [← cmp_eq_compare, ← cmp_eq_compare]
  exact Int.natCast_strictMono.cmp_map_eq m n

/-- **Numbers are compared by their ranks.** -/
theorem compare_eq_rank {a b : UnpackedFloat} (ha : a ≠ .notANumber) (hb : b ≠ .notANumber) :
    a.compare b = some (compare (unpackedRank a) (unpackedRank b)) := by
  rw [Prod.Lex.compare_def]
  rcases a with ⟨_ | _⟩ | _ | _ | ⟨_ | _, m, e, _⟩ <;>
    rcases b with ⟨_ | _⟩ | _ | _ | ⟨_ | _, m', e', _⟩ <;>
    -- unless both are finite and of one sign, the classes decide
    first
      | rfl
      | exact absurd rfl ha
      | exact absurd rfl hb
      | skip
  · show some ((compare e e').then (compare m m')).swap =
      some ((compare (-e) (-e')).then (compare (-(m : ℤ)) (-(m' : ℤ))))
    rw [Ordering.swap_then, compare_neg, compare_neg, compare_cast]
  · show some ((compare e e').then (compare m m')) =
      some ((compare e e').then (compare (m : ℤ) (m' : ℤ)))
    rw [compare_cast]

/-- What is not a number compares with nothing. -/
theorem compare_ne_none_iff {a b : UnpackedFloat} :
    a.compare b ≠ none ↔ a ≠ .notANumber ∧ b ≠ .notANumber := by
  constructor
  · intro some
    refine ⟨?_, ?_⟩ <;> rintro rfl
    · exact some rfl
    · exact some (by cases a <;> rfl)
  · rintro ⟨ha, hb⟩
    rw [compare_eq_rank ha hb]
    exact Option.some_ne_none _

/-- Whether a double is a number. -/
def IsNumber (x : Float) : Prop := x.toModel.unpack ≠ .notANumber

/-- The rank of a number. -/
def rank (x : Float) : ℤ ×ₗ ℤ ×ₗ ℤ := unpackedRank x.toModel.unpack

variable {x y : Float}

theorem lt_iff : x < y ↔ IsNumber x ∧ IsNumber y ∧ rank x < rank y := by
  have meaning : x < y ↔ x.toModel.unpack.compare y.toModel.unpack = some .lt := by
    show decide ((x.toModel.unpack.compare y.toModel.unpack == some .lt) = true) = true ↔ _
    rw [decide_eq_true_iff, beq_iff_eq]
  rw [meaning]
  constructor
  · intro less
    obtain ⟨hx, hy⟩ := compare_ne_none_iff.mp (less ▸ Option.some_ne_none _)
    rw [compare_eq_rank hx hy, Option.some.injEq, compare_lt_iff_lt] at less
    exact ⟨hx, hy, less⟩
  · rintro ⟨hx, hy, less⟩
    rw [compare_eq_rank hx hy, Option.some.injEq, compare_lt_iff_lt]
    exact less

theorem le_iff : x ≤ y ↔ IsNumber x ∧ IsNumber y ∧ rank x ≤ rank y := by
  have meaning : x ≤ y ↔ (x.toModel.unpack.compare y.toModel.unpack).any Ordering.isLE = true := by
    show decide ((x.toModel.unpack.compare y.toModel.unpack).any Ordering.isLE = true) = true ↔ _
    rw [decide_eq_true_iff]
  rw [meaning]
  constructor
  · intro less
    obtain ⟨hx, hy⟩ := compare_ne_none_iff.mp fun none => by rw [none] at less; cases less
    rw [compare_eq_rank hx hy, Option.any_some, Ordering.isLE_iff_ne_gt] at less
    exact ⟨hx, hy, compare_le_iff_le.mp less⟩
  · rintro ⟨hx, hy, less⟩
    rw [compare_eq_rank hx hy, Option.any_some, Ordering.isLE_iff_ne_gt]
    exact compare_le_iff_le.mpr less

/-- Of two numbers one is less than the other, or no greater. -/
theorem not_le_iff (hx : IsNumber x) (hy : IsNumber y) : ¬ x ≤ y ↔ y < x := by
  rw [le_iff, lt_iff]
  simp [hx, hy]

theorem lt_of_lt_of_le {x y z : Float} (h : x < y) (h' : y ≤ z) : x < z := by
  obtain ⟨hx, -, less⟩ := lt_iff.mp h
  obtain ⟨-, hz, less'⟩ := le_iff.mp h'
  exact lt_iff.mpr ⟨hx, hz, less.trans_le less'⟩

theorem lt_of_le_of_lt {x y z : Float} (h : x ≤ y) (h' : y < z) : x < z := by
  obtain ⟨hx, -, less⟩ := le_iff.mp h
  obtain ⟨-, hz, less'⟩ := lt_iff.mp h'
  exact lt_iff.mpr ⟨hx, hz, less.trans_lt less'⟩

end Blockwork.Binary
