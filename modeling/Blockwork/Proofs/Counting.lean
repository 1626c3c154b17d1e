import Blockwork.Proofs.Binary

/-!
# Counting

Adding floats is defined by taking them apart, adding the mantissas over the smaller exponent, and
rounding.  For whole numbers below `2^53` none of this loses anything, so a counter that is kept as a
float is exact (`ofNat_add_one`).

The canonical form of such a number `n` is `n · 2^k` over the exponent `-k`, where `k` are the places left
in front of its leading bit.  What is load-bearing is that rounding sees the sum with at least as many
zeros behind it as its own form has (`round_whole`): it shifts them out again, and nothing else.
-/

namespace Blockwork.Binary

open Float.Model Float.Model.UnpackedFloat

/-- What a positive number with a leading bit is taken apart into by the arithmetic of floats. -/
theorem unpack_ofMagnitude {m : Nat} {q : Int} (h : double.Holds m q) (leading : 2 ^ 52 ≤ m) :
    (ofMagnitude false (double.pattern m q)).toModel.unpack = .finite .positive m q (by omega) := by
  have bits : (ofMagnitude false (double.pattern m q)).toModel.toBits.toBitVec.toNat =
      (q + 1074).toNat * 2 ^ 52 + m :=
    (toBits_ofMagnitude false h.finite.le).trans (double_pattern m q)
  have short : m < 2 ^ 53 := h.short
  have finite := h.finite
  have least := h.least
  rw [double_pattern, double_infinity] at finite
  rw [double_least] at least
  obtain ⟨k, rfl⟩ : ∃ k : Nat, q = k - 1074 := ⟨(q + 1074).toNat, by omega⟩
  have shift : ((k : Int) - 1074 + 1074).toNat = k := by omega
  rw [shift] at bits
  unfold Float.Model.unpack
  generalize (ofMagnitude false (double.pattern m (k - 1074))).toModel.toBits.toBitVec = b at bits
  have exponent : (@unpackExponent .binary64 b).toNat = k + 1 := by
    rw [unpackExponent_def, BitVec.extractLsb'_toNat, Nat.shiftRight_eq_div_pow, bits]
    show (k * 2 ^ 52 + m) / 2 ^ 52 % 2 ^ 11 = k + 1
    omega
  have mantissa : (@unpackMantissa .binary64 b).toNat = m - 2 ^ 52 := by
    rw [unpackMantissa_def, BitVec.extractLsb'_toNat, Nat.shiftRight_zero, bits]
    show (k * 2 ^ 52 + m) % 2 ^ 52 = m - 2 ^ 52
    omega
  have sign : @unpackSign .binary64 b = 0#1 := by
    rw [← BitVec.toNat_inj, unpackSign_def, BitVec.extractLsb'_toNat, Nat.shiftRight_eq_div_pow, bits]
    show (k * 2 ^ 52 + m) / 2 ^ 63 % 2 ^ 1 = 0
    omega
  unfold UnpackedFloat.unpack
  have full : @unpackExponent .binary64 b ≠ -1#_ := by
    rw [Ne, ← BitVec.toNat_inj, exponent]
    show k + 1 ≠ 2047
    omega
  have empty : @unpackExponent .binary64 b ≠ 0#_ := by
    rw [Ne, ← BitVec.toNat_inj, exponent]
    show k + 1 ≠ 0
    omega
  simp only [full, empty, if_false]
  congr 1
  · rw [sign]; rfl
  · rw [BitVec.toNat_append, mantissa]
    show (1 <<< 52 ||| (m - 2 ^ 52)) = m
    rw [← Nat.shiftLeft_add_eq_or_of_lt (by omega)]
    omega
  · rw [exponent]
    show ((k + 1 : Nat) : Int) - (1023 + 52) = _
    omega

/-- The canonical form of a whole number below `2^53`: its leading bit is shifted to the front. -/
theorem holds_ofNat {n : Nat} (pos : 0 < n) (small : n < 2 ^ 53) :
    double.Holds (n * 2 ^ (52 - n.log2)) (-(52 - n.log2 : Nat)) ∧ 2 ^ 52 ≤ n * 2 ^ (52 - n.log2) := by
  have log : n.log2 < 53 := (Nat.log2_lt (by omega)).mpr small
  have low : 2 ^ n.log2 ≤ n := Nat.log2_self_le (by omega)
  have high : n < 2 ^ (n.log2 + 1) := Nat.lt_log2_self
  have leading : 2 ^ 52 ≤ n * 2 ^ (52 - n.log2) := by
    calc 2 ^ 52 = 2 ^ n.log2 * 2 ^ (52 - n.log2) := by rw [← Nat.pow_add]; congr 1; omega
      _ ≤ n * 2 ^ (52 - n.log2) := Nat.mul_le_mul_right _ low
  have short : n * 2 ^ (52 - n.log2) < 2 ^ 53 := by
    calc n * 2 ^ (52 - n.log2) < 2 ^ (n.log2 + 1) * 2 ^ (52 - n.log2) :=
          Nat.mul_lt_mul_of_pos_right high (by positivity)
      _ = 2 ^ 53 := by rw [← Nat.pow_add]; congr 1; omega
  refine ⟨⟨?_, short, .inr leading, ?_⟩, leading⟩
  · rw [double_least]
    omega
  · rw [double_pattern, double_infinity]
    omega

/-- A whole number has the pattern of its canonical form. -/
theorem ofNat_eq_ofMagnitude {n : Nat} (pos : 0 < n) (small : n < 2 ^ 53) :
    ofNat n = ofMagnitude false (double.pattern (n * 2 ^ (52 - n.log2)) (-(52 - n.log2 : Nat))) := by
  have same := encodeScaled_mul_pow double n 0 (52 - n.log2)
  rw [Int.zero_sub, encodeScaled_of_holds (holds_ofNat pos small).1] at same
  rw [same, ofNat, encodeScaled, if_pos le_rfl]
  simp

/-- The arithmetic of floats takes a whole number apart into its canonical form. -/
theorem unpack_ofNat {n : Nat} (pos : 0 < n) (small : n < 2 ^ 53) :
    (ofNat n).toModel.unpack =
      .finite .positive (n * 2 ^ (52 - n.log2)) (-(52 - n.log2 : Nat)) (by positivity) := by
  obtain ⟨holds, leading⟩ := holds_ofNat pos small
  rw [ofNat_eq_ofMagnitude pos small, unpack_ofMagnitude holds leading]

/-! ## Rounding what needs none -/

/-- Zeros are shifted out without a trace. -/
theorem shiftRight_exact (m j : Nat) :
    ((⟨m * 2 ^ j, false, false⟩ : ExtendedMantissa) >>> j) = ⟨m, false, false⟩ := by
  show Nat.repeat ExtendedMantissa.shiftRightOne j _ = _
  induction j generalizing m with
  | zero => simp [Nat.repeat]
  | succ j ih =>
      rw [Nat.repeat, Nat.pow_succ', ← Nat.mul_assoc, ih]
      simp [ExtendedMantissa.shiftRightOne]


/-- The exponent that rounding aims at is that of the canonical form. -/
theorem targetExponent_whole {s : Nat} (pos : 0 < s) (small : s < 2 ^ 53) (k : Nat) :
    Format.binary64.targetExponent (totalExponent (s * 2 ^ k) (-k)) = -(52 - s.log2 : Nat) := by
  have log : s.log2 < 53 := (Nat.log2_lt (by omega)).mpr small
  rw [totalExponent, log2_mul_pow (by omega)]
  show max ((((s.log2 + k : Nat) : Int) + 1 + -k) - 53) (-1074) = _
  omega

/-- A whole number with zeros behind it is brought into its canonical form. -/
theorem shift_whole {s : Nat} (pos : 0 < s) (small : s < 2 ^ 53) (j : Nat) :
    shiftToTargetExponent .binary64 (s * 2 ^ (52 - s.log2 + j)) (-(52 - s.log2 + j : Nat)) .exact =
      (⟨s * 2 ^ (52 - s.log2), false, false⟩, -((52 - s.log2 : Nat) : Int)) := by
  have amount : (-((52 - s.log2 : Nat) : Int) - -((52 - s.log2 + j : Nat) : Int)).toNat = j := by omega
  rw [shiftToTargetExponent, targetExponent_whole pos small, shiftToExponent, amount]
  refine Prod.ext ?_ ?_
  · show (⟨s * 2 ^ (52 - s.log2 + j), false, false⟩ : ExtendedMantissa) >>> j = _
    rw [Nat.pow_add, ← Nat.mul_assoc, shiftRight_exact]
  · show (-((52 - s.log2 + j : Nat) : Int)) + (j : Int) = _
    omega

/-- Rounding a whole number with zeros behind it changes its form only. -/
theorem round_whole {s K : Nat} (pos : 0 < s) (small : s < 2 ^ 53) (enough : 52 - s.log2 ≤ K) :
    UnpackedFloat.round .binary64 .positive (s * 2 ^ K) (-K) =
      .finite .positive (s * 2 ^ (52 - s.log2)) (-(52 - s.log2 : Nat)) (by positivity) := by
  obtain ⟨j, rfl⟩ : ∃ j, K = 52 - s.log2 + j := ⟨K - (52 - s.log2), by omega⟩
  have unmoved : decreaseExponent (s * 2 ^ (52 - s.log2 + j)) (-(52 - s.log2 + j : Nat))
      (-(52 - s.log2 : Nat)) = (s * 2 ^ (52 - s.log2 + j), -((52 - s.log2 + j : Nat) : Int)) := by
    have amount : (-((52 - s.log2 + j : Nat) : Int) - -((52 - s.log2 : Nat) : Int)).toNat = 0 := by
      omega
    rw [decreaseExponent, amount]
    simp
  have again := shift_whole pos small 0
  rw [Nat.add_zero] at again
  rw [UnpackedFloat.round, targetExponent_whole pos small, unmoved]
  dsimp only
  rw [roundWithAccuracy, shift_whole pos small]
  dsimp only
  have rounded : (⟨s * 2 ^ (52 - s.log2), false, false⟩ : ExtendedMantissa).roundedMantissa =
    s * 2 ^ (52 - s.log2) := rfl
  rw [rounded, again]
  have nonzero : s * 2 ^ (52 - s.log2) ≠ 0 := by positivity
  exact dif_neg nonzero

/-! ## Sums -/

/-- Canonical forms of whole numbers are added exactly. -/
theorem add_whole {a b : Nat} (apos : 0 < a) (bpos : 0 < b) (small : a + b < 2 ^ 53) :
    UnpackedFloat.add .binary64
      (.finite .positive (a * 2 ^ (52 - a.log2)) (-(52 - a.log2 : Nat)) (by positivity))
      (.finite .positive (b * 2 ^ (52 - b.log2)) (-(52 - b.log2 : Nat)) (by positivity)) =
    .finite .positive ((a + b) * 2 ^ (52 - (a + b).log2)) (-(52 - (a + b).log2 : Nat)) (by positivity) := by
  -- both are written with the smaller of the two exponents
  have lower {n K : Nat} (h : 52 - n.log2 ≤ K) : (decreaseExponent (n * 2 ^ (52 - n.log2))
      (-(52 - n.log2 : Nat)) (-(K : Int))).1 = n * 2 ^ K := by
    have amount : (-((52 - n.log2 : Nat) : Int) - -(K : Int)).toNat = K - (52 - n.log2) := by omega
    have whole : 52 - n.log2 + (K - (52 - n.log2)) = K := by omega
    rw [decreaseExponent, amount, Nat.shiftLeft_eq, Nat.mul_assoc, ← Nat.pow_add, whole]
  have smaller : min (-((52 - a.log2 : Nat) : Int)) (-((52 - b.log2 : Nat) : Int)) =
      -((max (52 - a.log2) (52 - b.log2) : Nat) : Int) := by omega
  have log : a.log2 ≤ (a + b).log2 := by
    rw [Nat.le_log2 (by omega)]
    exact (Nat.log2_self_le (by omega)).trans (Nat.le_add_right a b)
  have pos : 0 < (a + b) * 2 ^ max (52 - a.log2) (52 - b.log2) := by positivity
  have sum : ((a * 2 ^ max (52 - a.log2) (52 - b.log2) : Nat) : Int) +
      (b * 2 ^ max (52 - a.log2) (52 - b.log2) : Nat) =
      ((a + b) * 2 ^ max (52 - a.log2) (52 - b.log2) : Nat) := by
    push_cast
    ring
  rw [UnpackedFloat.add, smaller]
  dsimp only
  rw [lower (Nat.le_max_left _ _), lower (Nat.le_max_right _ _)]
  show UnpackedFloat.normalize .binary64 (_ + _) _ _ = _
  rw [Sign.apply, Sign.apply, sum, UnpackedFloat.normalize,
    compare_gt_iff_gt.mpr (Int.natCast_pos.mpr pos)]
  dsimp only
  rw [Int.toNat_natCast]
  exact round_whole (by omega) small (by omega)

/-- **Whole numbers are added exactly**, as long as they are below the first that is not. -/
theorem ofNat_add {a b : Nat} (apos : 0 < a) (bpos : 0 < b) (small : a + b < 2 ^ 53) :
    ofNat a + ofNat b = ofNat (a + b) := by
  have sum : (ofNat (a + b)).toModel = (ofNat a).toModel.add (ofNat b).toModel := by
    have again (n : Nat) : (ofNat n).toModel = Float.Model.pack (ofNat n).toModel.unpack :=
      congrArg Float.toModel (Float.ofBits_toBits (ofNat n)).symm
    rw [again, Float.Model.add, unpack_ofNat apos (by omega), unpack_ofNat bpos (by omega),
      unpack_ofNat (by omega) small, add_whole apos bpos small]
  show Float.ofModel _ = _
  exact congrArg Float.ofModel sum.symm

/-- Counting is exact. -/
theorem ofNat_add_one {n : Nat} (small : n + 1 < 2 ^ 53) : ofNat n + 1 = ofNat (n + 1) := by
  have one : (1 : Float) = ofNat 1 := rfl
  cases n with
  | zero => rfl
  | succ n => rw [one, ofNat_add (Nat.succ_pos n) Nat.one_pos small]

end Blockwork.Binary
