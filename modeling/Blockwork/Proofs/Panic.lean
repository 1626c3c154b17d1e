import Blockwork.Proofs.Decimal.Signs
import Blockwork.Proofs.World

/-!
# Where a calculation panics

The magnitude limit is taken from the limits as it is, and a number beyond it is clamped between its opposite
and itself.  If it is negative, every finite number is beyond it and the bounds are the wrong way round, so a
calculation panics exactly if the limit is negative and there is a finite result
(`MathOp.apply_eq_panic_iff`).  Under any other limit none does.
-/

namespace Blockwork

/-- The magnitude limit is negative, so that no number keeps to it. -/
def Limits.Contradictory (limits : Limits) : Prop := limits.magnitude < 0

instance (limits : Limits) : Decidable limits.Contradictory :=
  inferInstanceAs (Decidable (limits.magnitude < 0))

theorem Failure.isContradiction_iff {e : Failure} : e.isContradiction = true ↔ e = .panic := by
  cases e <;> simp [isContradiction]

/-- Clamping panics exactly if the limit is negative and there is something to clamp. -/
theorem MathOp.limited_eq_panic_iff {op : MathOp} {limit x : Float} :
    op.limited limit x = .error .panic ↔ limit < 0 ∧ Binary.isFinite x = true := by
  unfold limited clamp
  cases finite : Binary.isFinite x with
  | false => simp
  | true =>
      have number := Binary.isNumber_of_isFinite finite
      have order : limit < 0 ↔ limit < x.abs ∧ ¬ -limit ≤ limit := by
        rw [Binary.neg_le_self_iff]
        constructor
        · intro negative
          obtain ⟨real, -, -⟩ := Binary.lt_iff.mp negative
          exact ⟨Binary.lt_of_lt_of_le negative (Binary.abs_nonneg_of_isNumber number),
            (Binary.not_le_iff Binary.isNumber_zero real).mpr negative⟩
        · rintro ⟨beyond, less⟩
          obtain ⟨real, -, -⟩ := Binary.lt_iff.mp beyond
          exact (Binary.not_le_iff Binary.isNumber_zero real).mp less
      rw [order]
      by_cases beyond : limit < x.abs
      · by_cases ordered : -limit ≤ limit <;> simp [beyond, ordered]
      · simp [beyond]

/-- No operation panics by itself. -/
theorem MathOp.compute_ne_panic (op : MathOp) (left right : Float) (dice : Dice) :
    (op.compute left right dice).1 ≠ .error .panic := by
  cases op <;> simp only [compute] <;> grind

/-- **A calculation panics exactly if the limit is negative and the result is finite.** -/
theorem MathOp.apply_eq_panic_iff (op : MathOp) (left right limit : Float) (dice : Dice) :
    (op.apply left right limit dice).1 = .error .panic ↔
      limit < 0 ∧ ∃ x, (op.compute left right dice).1 = .ok x ∧ Binary.isFinite x = true := by
  have other := op.compute_ne_panic left right dice
  unfold apply
  generalize op.compute left right dice = result at other ⊢
  rcases result with ⟨e | x, dice'⟩
  · simpa using other
  · simp [limited_eq_panic_iff]

/-- An operand that is missing or not a number is another failure. -/
theorem Scene.number_ne_panic (s : Scene) (v : Option Value) (what : String) :
    s.number v what ≠ .error .panic := by
  unfold number require
  cases v with
  | none => nofun
  | some v =>
      simp only [bind, Except.bind]
      split <;> nofun

/-- A math block panics only if its limit is negative. -/
theorem Scene.negative_of_calculation {s : Scene} {m : MathStep} {limit : Float} {dice : Dice}
    (panics : (s.calculation m limit dice).1 = .error .panic) : limit < 0 := by
  have left := s.number_ne_panic m.left "left operand"
  have right := s.number_ne_panic m.right "right operand"
  unfold calculation at panics
  dsimp only at panics
  split at panics
  · next operands =>
    simp only [bind, Except.bind, pure, Except.pure, throw, throwThe, MonadExceptOf.throw] at operands
    grind
  · next op left right result _ =>
    refine ((op.apply_eq_panic_iff left right limit dice).mp ?_).1
    cases made : (op.apply left right limit dice).1 with
    | ok x =>
        rw [made] at panics
        cases panics
    | error e =>
        rw [made] at panics
        exact congrArg Except.error (Except.error.inj panics)

end Blockwork
