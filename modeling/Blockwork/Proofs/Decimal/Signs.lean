import Blockwork.Proofs.Binary
import Blockwork.Proofs.Decimal.Order

/-!
# The signs of numbers

Opposites and absolute values are taken of unpacked forms, which are then packed.  Packing one that comes
from a pattern loses nothing, whatever its sign is (`unpack_pack_signed`), so opposites and absolute values
have the ranks that one expects.
-/

namespace Blockwork.Binary

open Float.Model Float.Model.UnpackedFloat

/-- An unpacked form with another sign. -/
def signed (s : Sign) : UnpackedFloat → UnpackedFloat
  | .infinity _ => .infinity s
  | .notANumber => .notANumber
  | .zero _ => .zero s
  | .finite _ m e pos => .finite s m e pos

theorem unpack_packComponents {spec : Float.Model.Format} (s : Sign) (b : BitVec spec.numBits) :
    UnpackedFloat.unpack spec (packComponents spec s (unpackExponent b) (unpackMantissa b)) =
      signed s (UnpackedFloat.unpack spec b) := by
  unfold UnpackedFloat.unpack
  simp only [unpackExponent_packComponents, unpackMantissa_packComponents, unpackSign_packComponents,
    Sign.ofBitVec_toBitVec]
  split
  · split <;> rfl
  · split
    · split <;> rfl
    · rfl

/-- A form that comes from a pattern comes back from its own pattern, whatever its sign. -/
theorem unpack_pack_signed {spec : Float.Model.Format} (wide : 2 ≤ spec.exponentBits) (s : Sign)
    (b : BitVec spec.numBits) :
    UnpackedFloat.unpack spec (UnpackedFloat.pack spec (signed s (UnpackedFloat.unpack spec b))) =
      signed s (UnpackedFloat.unpack spec b) := by
  rw [← unpack_packComponents, pack_unpack _ wide]
  split
  · next nan =>
    obtain ⟨exponent, mantissa⟩ := of_decide_eq_true nan
    rw [unpack_packedNaN, UnpackedFloat.unpack]
    simp only [exponent, mantissa, if_true, if_false]
  · rfl

/-- Nothing is lost in a number that is another but for its sign. -/
theorem unpack_of_signed {x y : Float} {s : Sign} {u : UnpackedFloat}
    (packed : y.toModel = Float.Model.pack u) (same : u = signed s x.toModel.unpack) :
    y.toModel.unpack = u := by
  rw [packed, same]
  exact unpack_pack_signed (by decide) s _

theorem unpack_neg (x : Float) : (-x).toModel.unpack = x.toModel.unpack.neg := by
  have turned (u : UnpackedFloat) : ∃ s, u.neg = signed s u := by
    cases u with
    | infinity s => exact ⟨-s, rfl⟩
    | notANumber => exact ⟨.positive, rfl⟩
    | zero s => exact ⟨-s, rfl⟩
    | finite s => exact ⟨-s, rfl⟩
  obtain ⟨s, same⟩ := turned x.toModel.unpack
  exact unpack_of_signed rfl same

theorem unpack_abs (x : Float) : x.abs.toModel.unpack = x.toModel.unpack.abs := by
  have same : x.toModel.unpack.abs = signed .positive x.toModel.unpack := by
    cases x.toModel.unpack <;> rfl
  exact unpack_of_signed rfl same

variable {x : Float}

theorem rank_zero : rank 0 = toLex (0, toLex (0, 0)) := rfl

theorem isNumber_zero : IsNumber 0 := nofun

theorem zero_le_iff : 0 ≤ x ↔ IsNumber x ∧ toLex (0, toLex (0, 0)) ≤ rank x := by
  rw [le_iff, rank_zero]
  exact and_iff_right isNumber_zero

theorem isNumber_neg_iff : IsNumber (-x) ↔ IsNumber x := by
  unfold IsNumber
  rw [unpack_neg]
  cases x.toModel.unpack <;> simp [UnpackedFloat.neg]

theorem isNumber_abs_iff : IsNumber x.abs ↔ IsNumber x := by
  unfold IsNumber
  rw [unpack_abs]
  cases x.toModel.unpack <;> simp [UnpackedFloat.abs]

/-- A number is no less than its opposite exactly if it is not negative. -/
theorem neg_le_self_iff : -x ≤ x ↔ 0 ≤ x := by
  rw [le_iff, zero_le_iff, isNumber_neg_iff, IsNumber, rank, rank, unpack_neg]
  rcases x.toModel.unpack with ⟨_ | _⟩ | _ | _ | ⟨_ | _, m, e, pos⟩ <;>
    simp [UnpackedFloat.neg, unpackedRank, Prod.Lex.toLex_le_toLex]

/-- An absolute value is not negative. -/
theorem abs_nonneg_of_isNumber (h : IsNumber x) : 0 ≤ x.abs := by
  refine zero_le_iff.mpr ⟨isNumber_abs_iff.mpr h, ?_⟩
  rw [rank, unpack_abs]
  rcases x.toModel.unpack with _ | _ | _ | _ <;>
    simp [UnpackedFloat.abs, unpackedRank, Prod.Lex.toLex_le_toLex]

/-- What is finite is a number. -/
theorem isNumber_of_isFinite (h : isFinite x = true) : IsNumber x := by
  intro none
  obtain ⟨s, m, q, reading⟩ := isFinite_iff.mp h
  have bits : x.toModel.toBits.toBitVec = nan.toModel.toBits.toBitVec :=
    (unpack_eq_notANumber_iff_of_valid x.toModel.valid).mp none
  obtain rfl : x = nan := Float.toBits_inj.mp (UInt64.toBitVec_inj.mp bits)
  cases reading

end Blockwork.Binary
