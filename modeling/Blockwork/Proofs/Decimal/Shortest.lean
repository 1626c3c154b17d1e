import Mathlib
import Blockwork.Decimal.Shortest
import Blockwork.Proofs.Binary

/-!
# The fewest digits read back

A decimal stands for a rational number (`Decimal.value`), and what it is encoded as depends on that
number only (`encode_eq_of_value`).  So zeros may be dropped, a point may be moved, and the digits that
are written for a number of a format are read back as it (`encode_shortest`).

## What is load-bearing

* `encode_eq`: decimals far beyond either end of a format are encoded without being computed, as what the
  computation would have given.  Above this is by the exponent of ten alone; below, a power of ten is
  weighed as three powers of two (`value_lt`), and what is less than a quarter of the least number rounds
  to nothing.
* Every grid is tried with the test that the result is to pass, so nothing has to be known about how
  the grids are chosen.  Only the last resort, all digits, needs an argument (`value_exact`).
-/

namespace Blockwork.Binary

/-! ## Beyond the ends of a format -/

/-- A number beyond the greatest exponent is encoded as infinity. -/
theorem encode_eq_infinity {f : Format} {n d : Nat} (hn : n ≠ 0) (hd : d ≠ 0)
    (large : (2 : ℚ) ^ (2 ^ f.exponent) ≤ n / d) : encode f n d = f.infinity := by
  have log : ((2 ^ f.exponent : Nat) : Int) ≤ floorLog2 n d := by
    rw [floorLog2_eq_log hn hd, ← Int.zpow_le_iff_le_log (by decide) (by positivity), zpow_natCast]
    exact_mod_cast large
  have least : f.least = 2 - (2 ^ (f.exponent - 1) : Nat) - f.fraction := rfl
  have pos : 1 ≤ 2 ^ (f.exponent - 1) := Nat.one_le_two_pow
  have room : 2 ^ f.exponent - 1 ≤ (max (floorLog2 n d - f.fraction) f.least - f.least).toNat := by
    omega
  unfold encode
  rw [if_neg hn]
  exact Nat.min_eq_right ((Nat.mul_le_mul_right _ room).trans (Nat.le_add_right _ _))

/-- A number below a quarter of the least one is encoded as zero. -/
theorem encode_eq_zero {f : Format} {n d : Nat} (hd : d ≠ 0)
    (small : (n : ℚ) / d < 2 ^ (f.least - 2)) : encode f n d = 0 := by
  by_cases hn : n = 0
  · rw [hn, encode, if_pos rfl]
  have posn : (0 : ℚ) < n := by positivity
  have posd : (0 : ℚ) < d := by positivity
  have log : floorLog2 n d < f.least - 2 := by
    rw [floorLog2_eq_log hn hd, ← Int.lt_zpow_iff_log_lt (by decide) (by positivity)]
    exact_mod_cast small
  have exponent : max (floorLog2 n d - f.fraction) f.least = f.least := by omega
  have quarter : (4 : ℚ) * n < d * 2 ^ f.least := by
    rw [div_lt_iff₀ posd, zpow_sub₀ two_ne_zero] at small
    linarith
  have nothing : (if 0 ≤ f.least then divNearest n (d * Nat.pow 2 f.least.toNat)
      else divNearest (n * Nat.pow 2 (-f.least).toNat) d) = 0 := by
    split
    · next up =>
      obtain ⟨j, whole⟩ := Int.eq_ofNat_of_zero_le up
      rw [whole, zpow_natCast] at quarter
      rw [whole, Int.toNat_natCast]
      have : 4 * n < d * 2 ^ j := by exact_mod_cast quarter
      exact divNearest_eq_zero (by rw [Nat.pow_eq]; omega)
    · next down =>
      obtain ⟨j, whole⟩ : ∃ j : Nat, f.least = -j := ⟨(-f.least).toNat, by omega⟩
      rw [whole, zpow_neg, zpow_natCast, ← div_eq_mul_inv, lt_div_iff₀ (by positivity)] at quarter
      rw [whole, neg_neg, Int.toNat_natCast]
      have : 4 * n * 2 ^ j < d := by exact_mod_cast quarter
      refine divNearest_eq_zero ?_
      rw [Nat.pow_eq]
      linarith
  unfold encode
  simp only [exponent, nothing, if_neg hn]
  simp

end Blockwork.Binary

namespace Blockwork.Decimal

/-! ## Values -/

/-- The number that a decimal stands for. -/
def value (d : Decimal) : ℚ := d.coefficient * 10 ^ d.exponent

theorem ratio_ne_zero (d : Decimal) : d.ratio.2 ≠ 0 := by
  unfold ratio
  split
  · exact one_ne_zero
  · exact Nat.ne_of_gt (Nat.pow_pos (by decide))

theorem div_ratio (d : Decimal) : (d.ratio.1 : ℚ) / d.ratio.2 = d.value := by
  obtain ⟨c, e⟩ := d
  unfold ratio value
  dsimp only
  split
  · next up =>
    obtain ⟨j, rfl⟩ := Int.eq_ofNat_of_zero_le up
    simp
  · next down =>
    obtain ⟨j, rfl⟩ : ∃ j : Nat, e = -j := ⟨(-e).toNat, by omega⟩
    simp [div_eq_mul_inv]

/-- A power of ten below one is at most the third power of a half as often. -/
theorem value_lt (d : Decimal) (nonzero : d.coefficient ≠ 0) (below : d.exponent ≤ 0) :
    d.value < 2 ^ ((d.coefficient.log2 : Int) + 1 + 3 * d.exponent) := by
  obtain ⟨c, e⟩ := d
  obtain ⟨j, rfl⟩ : ∃ j : Nat, e = -j := ⟨(-e).toNat, by simp only at below; omega⟩
  have high : (c : ℚ) < 2 ^ (c.log2 + 1) := by exact_mod_cast Nat.lt_log2_self
  have thirds : ((10 : ℚ) ^ j)⁻¹ ≤ (8 ^ j)⁻¹ := by gcongr; norm_num
  calc (c : ℚ) * 10 ^ (-j : Int) = c * (10 ^ j)⁻¹ := by rw [zpow_neg, zpow_natCast]
    _ < 2 ^ (c.log2 + 1) * (8 ^ j)⁻¹ := by
        refine mul_lt_mul high thirds (by positivity) (by positivity)
    _ = 2 ^ ((c.log2 : Int) + 1 + 3 * -j) := by
        rw [zpow_add₀ two_ne_zero, mul_neg, zpow_neg, zpow_mul]
        norm_cast

/-- Decimals far beyond either end of a format are recognised for what they are encoded as. -/
theorem encode_eq (f : Binary.Format) (d : Decimal) :
    d.encode f = Binary.encode f d.ratio.1 d.ratio.2 := by
  unfold encode
  split
  · next zero =>
    have none : d.ratio.1 = 0 := by simp [ratio, zero, apply_ite Prod.fst]
    rw [none, Binary.encode, if_pos rfl]
  · next nonzero =>
    have some : d.ratio.1 ≠ 0 := by
      unfold ratio
      split
      · exact Nat.mul_ne_zero nonzero (Nat.ne_of_gt (Nat.pow_pos (by decide)))
      · exact nonzero
    have one : (1 : ℚ) ≤ d.coefficient := by exact_mod_cast Nat.one_le_iff_ne_zero.mpr nonzero
    split
    · next large =>
      refine (Binary.encode_eq_infinity some d.ratio_ne_zero ?_).symm
      rw [div_ratio, value]
      calc (2 : ℚ) ^ (2 ^ f.exponent) = 2 ^ ((Nat.pow 2 f.exponent : Nat) : Int) := by
            rw [zpow_natCast, Nat.pow_eq]
        _ ≤ 2 ^ d.exponent := zpow_le_zpow_right₀ one_le_two large
        _ ≤ 10 ^ d.exponent := zpow_le_zpow_left₀ (by omega) (by norm_num) (by norm_num)
        _ ≤ d.coefficient * 10 ^ d.exponent := le_mul_of_one_le_left (by positivity) one
    · split
      · next small =>
        refine (Binary.encode_eq_zero d.ratio_ne_zero ?_).symm
        have below : d.exponent ≤ 0 := by
          have least : f.least = 2 - (2 ^ (f.exponent - 1) : Nat) - f.fraction := rfl
          have : 1 ≤ 2 ^ (f.exponent - 1) := Nat.one_le_two_pow
          omega
        rw [div_ratio]
        exact (d.value_lt nonzero below).trans_le (zpow_le_zpow_right₀ one_le_two (by omega))
      · rfl

theorem encode_eq_of_value (f : Binary.Format) {d d' : Decimal} (same : d.value = d'.value) :
    d.encode f = d'.encode f := by
  rw [encode_eq, encode_eq]
  exact Binary.encode_congr f d.ratio_ne_zero d'.ratio_ne_zero (by rw [div_ratio, div_ratio, same])

theorem value_dropZeros (n : Nat) (d : Decimal) : (dropZeros n d).value = d.value := by
  induction n generalizing d with
  | zero => rfl
  | succ n ih =>
      rw [dropZeros]
      split
      · next zero =>
        obtain ⟨k, whole⟩ : ∃ k, d.coefficient = 10 * k := ⟨d.coefficient / 10, by omega⟩
        rw [ih, value, value, whole, Nat.mul_div_cancel_left _ (by decide), zpow_add_one₀ (by norm_num)]
        push_cast
        ring
      · rfl

/-- The quotient that a number `m · 2^q` is written as. -/
theorem encodeScaled_eq (f : Binary.Format) (m : Nat) (q : Int) {d : Decimal}
    (same : d.value = m * 2 ^ q) : d.encode f = Binary.encodeScaled f m q := by
  rw [encode_eq]
  unfold Binary.encodeScaled
  split
  · next up =>
    obtain ⟨j, rfl⟩ := Int.eq_ofNat_of_zero_le up
    refine Binary.encode_congr f d.ratio_ne_zero one_ne_zero ?_
    rw [div_ratio, same]
    simp
  · next down =>
    obtain ⟨j, rfl⟩ : ∃ j : Nat, q = -j := ⟨(-q).toNat, by omega⟩
    refine Binary.encode_congr f d.ratio_ne_zero (by simp) ?_
    rw [div_ratio, same]
    simp [div_eq_mul_inv]

theorem value_exact (m : Nat) (q : Int) : (exact m q).value = m * 2 ^ q := by
  unfold exact value
  split
  · next up =>
    obtain ⟨j, rfl⟩ := Int.eq_ofNat_of_zero_le up
    simp
  · next down =>
    obtain ⟨j, rfl⟩ : ∃ j : Nat, q = -j := ⟨(-q).toNat, by omega⟩
    have ten : (10 : ℚ) ^ j = 5 ^ j * 2 ^ j := by rw [← mul_pow]; norm_num
    simp only [neg_neg, Int.toNat_natCast, Nat.pow_eq, zpow_neg, zpow_natCast, ten]
    push_cast
    field_simp

/-! ## Written digits -/

/-- A neighbour is taken only if it reads back. -/
theorem encode_neighbour {f : Binary.Format} {tie : Tie} {bits n d : Nat} {e : Int} {found : Decimal}
    (h : neighbour? f tie bits n d e = some found) : found.encode f = bits := by
  have taken (near far : Decimal) (h : (if near.encode f = bits then some near
      else if far.encode f = bits then some far else none) = some found) : found.encode f = bits := by
    split at h
    · next reads => exact Option.some.inj h ▸ reads
    · split at h
      · next reads => exact Option.some.inj h ▸ reads
      · cases h
  exact taken _ _ h

theorem encode_seek {f : Binary.Format} {tie : Tie} {bits n d : Nat} {top : Int} {room digits : Nat}
    {found : Decimal} (h : seek f tie bits n d top room digits = some found) : found.encode f = bits := by
  induction room generalizing digits with
  | zero => cases h
  | succ room ih =>
      rw [seek] at h
      split at h
      · next near =>
        cases h
        exact encode_neighbour near
      · exact ih h

/-- **The fewest digits read back**, whatever the format and the number. -/
theorem encode_shortest (f : Binary.Format) (tie : Tie) (m : Nat) (q : Int) :
    (shortest f tie m q).encode f = Binary.encodeScaled f m q := by
  unfold shortest
  split
  · next zero =>
    exact encodeScaled_eq f m q (by simp [value, zero])
  · dsimp only
    split
    · next found =>
      rw [encode_eq_of_value f (value_dropZeros 17 _), encode_seek found]
    · exact encodeScaled_eq f m q (value_exact m q)

end Blockwork.Decimal
