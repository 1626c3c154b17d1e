import Mathlib
import Blockwork.Decimal.Binary

/-!
# Exact numbers

A finite number of a format has one canonical form `m · 2^q`: the exponent is the least one there is,
or the fraction's leading bit is set.  Taking a bit pattern apart gives the canonical form
(`Format.holds_of_decode`), and putting a canonical form together gives the pattern back
(`encodeScaled_of_holds`, `decode_withSign`).

## What is load-bearing

* `encode_congr`: encoding looks at the value of a quotient only.  So it does not matter how `m · 2^q`
  is split into `m` and `q` (`encodeScaled_mul_pow`), and a change of width needs no arithmetic of its
  own: the wider format holds the same value with another split.
* `narrow_widen`: a finite single comes back from the double it is written as.
-/

namespace Blockwork.Binary

/-! ## Rounding exact quotients -/

theorem divNearest_mul_right (n d : Nat) {c : Nat} (pos : 0 < c) :
    divNearest (n * c) (d * c) = divNearest n d := by
  have less (a b : Nat) : 2 * (a * c) < b * c ↔ 2 * a < b := by
    rw [← Nat.mul_assoc, Nat.mul_lt_mul_right pos]
  have more (a b : Nat) : b * c < 2 * (a * c) ↔ b < 2 * a := by
    rw [← Nat.mul_assoc, Nat.mul_lt_mul_right pos]
  simp only [divNearest, Nat.mul_div_mul_right _ _ pos, Nat.mul_mod_mul_right, less, more]

theorem divNearest_mul_self (n : Nat) {d : Nat} (pos : 0 < d) : divNearest (n * d) d = n := by
  simp only [divNearest, Nat.mul_div_cancel _ pos, Nat.mul_mod_left, Nat.mul_zero, if_pos pos]

theorem divNearest_eq_zero {n d : Nat} (h : 2 * n < d) : divNearest n d = 0 := by
  have below : n < d := by omega
  simp only [divNearest, Nat.div_eq_of_lt below, Nat.mod_eq_of_lt below, if_pos h]

theorem log2_mul_pow {n : Nat} (pos : n ≠ 0) (k : Nat) : (n * 2 ^ k).log2 = n.log2 + k := by
  have log := (Nat.log2_eq_iff pos).mp rfl
  rw [Nat.log2_eq_iff (by positivity), Nat.pow_add, Nat.add_right_comm, Nat.pow_add]
  exact ⟨Nat.mul_le_mul_right _ log.1, Nat.mul_lt_mul_of_pos_right log.2 (by positivity)⟩

/-- The test for a power of two compares exact values. -/
theorem reached_iff (n : Nat) {d : Nat} (hd : d ≠ 0) (k : Int) :
    (if 0 ≤ k then d * Nat.pow 2 k.toNat ≤ n else d ≤ n * Nat.pow 2 (-k).toNat) ↔
      (2 : ℚ) ^ k ≤ n / d := by
  have pos : (0 : ℚ) < d := by positivity
  rw [le_div_iff₀ pos]
  split
  · next up =>
    obtain ⟨j, rfl⟩ := Int.eq_ofNat_of_zero_le up
    rw [Int.toNat_natCast, zpow_natCast, mul_comm]
    exact_mod_cast Iff.rfl
  · next down =>
    obtain ⟨j, rfl⟩ : ∃ j : Nat, k = -j := ⟨(-k).toNat, by omega⟩
    rw [neg_neg, Int.toNat_natCast, zpow_neg, zpow_natCast, inv_mul_le_iff₀ (by positivity), mul_comm]
    exact_mod_cast Iff.rfl

/-- The logarithm that is computed with whole numbers is that of the quotient. -/
theorem floorLog2_eq_log {n d : Nat} (hn : n ≠ 0) (hd : d ≠ 0) :
    floorLog2 n d = Int.log 2 ((n : ℚ) / d) := by
  have posn : (0 : ℚ) < n := by positivity
  have posd : (0 : ℚ) < d := by positivity
  have upper : Int.log 2 ((n : ℚ) / d) < (n.log2 : Int) - d.log2 + 1 := by
    rw [← Int.lt_zpow_iff_log_lt (by decide) (by positivity), div_lt_iff₀ posd]
    have low : (2 : ℚ) ^ d.log2 ≤ d := by exact_mod_cast Nat.log2_self_le hd
    have high : (n : ℚ) < 2 ^ (n.log2 + 1) := by exact_mod_cast Nat.lt_log2_self
    calc (n : ℚ) < 2 ^ (n.log2 + 1) := high
      _ = 2 ^ ((n.log2 : Int) - d.log2 + 1) * 2 ^ d.log2 := by
          rw [← zpow_natCast, ← zpow_natCast, ← zpow_add₀ two_ne_zero]
          congr 1
          push_cast
          ring
      _ ≤ _ := by
          push_cast
          gcongr
  have lower : (n.log2 : Int) - d.log2 - 1 ≤ Int.log 2 ((n : ℚ) / d) := by
    rw [← Int.zpow_le_iff_le_log (by decide) (by positivity), le_div_iff₀ posd]
    have low : (2 : ℚ) ^ n.log2 ≤ n := by exact_mod_cast Nat.log2_self_le hn
    have high : (d : ℚ) < 2 ^ (d.log2 + 1) := by exact_mod_cast Nat.lt_log2_self
    calc ((2 : Nat) : ℚ) ^ ((n.log2 : Int) - d.log2 - 1) * d
        ≤ 2 ^ ((n.log2 : Int) - d.log2 - 1) * 2 ^ (d.log2 + 1) := by
          push_cast
          gcongr
      _ = 2 ^ n.log2 := by
          rw [← zpow_natCast, ← zpow_natCast, ← zpow_add₀ two_ne_zero]
          congr 1
          push_cast
          ring
      _ ≤ n := low
  have reach := reached_iff n hd (n.log2 - d.log2)
  have least := Int.zpow_le_iff_le_log (b := 2) (x := n.log2 - d.log2) (by decide)
    (div_pos posn posd)
  rw [Nat.cast_ofNat] at least
  unfold floorLog2
  by_cases reached : (2 : ℚ) ^ ((n.log2 : Int) - d.log2) ≤ n / d
  · have := least.mp reached
    rw [if_pos (reach.mpr reached)]
    omega
  · have := mt least.mpr reached
    rw [if_neg (mt reach.mp reached)]
    omega

/-- A natural number over a power of two. -/
theorem floorLog2_pow {n : Nat} (hn : n ≠ 0) (k : Nat) :
    floorLog2 n (2 ^ k) = (n.log2 : Int) - k := by
  have log := Nat.log2_self_le hn
  simp only [floorLog2, Nat.log2_two_pow, Nat.pow_eq]
  by_cases reach : 0 ≤ (n.log2 : Int) - k
  · have reached : 2 ^ k * 2 ^ (n.log2 - k : Int).toNat ≤ n := by
      calc 2 ^ k * 2 ^ (n.log2 - k : Int).toNat = 2 ^ n.log2 := by
            rw [← Nat.pow_add]; congr 1; omega
        _ ≤ n := log
    simp only [reach, reached, if_true]
  · have reached : 2 ^ k ≤ n * 2 ^ (-(n.log2 - k : Int)).toNat := by
      calc 2 ^ k = 2 ^ n.log2 * 2 ^ (-(n.log2 - k : Int)).toNat := by
            rw [← Nat.pow_add]; congr 1; omega
        _ ≤ n * 2 ^ (-(n.log2 - k : Int)).toNat := Nat.mul_le_mul_right _ log
    simp only [reach, reached, if_true, if_false]

/-- **Encoding looks at the value only**, however it is written as a quotient. -/
theorem encode_congr (f : Format) {n d n' d' : Nat} (hd : d ≠ 0) (hd' : d' ≠ 0)
    (same : (n : ℚ) / d = n' / d') : encode f n d = encode f n' d' := by
  have cross : n * d' = n' * d := by
    have := (div_eq_div_iff (by positivity) (by positivity)).mp same
    exact_mod_cast this
  by_cases hn : n = 0
  · have hn' : n' = 0 := by
      rw [hn, Nat.zero_mul, eq_comm, Nat.mul_eq_zero] at cross
      exact cross.resolve_right hd
    rw [hn, hn', encode, encode, if_pos rfl, if_pos rfl]
  · have hn' : n' ≠ 0 := by
      rintro rfl
      rw [Nat.zero_mul, Nat.mul_eq_zero] at cross
      exact cross.elim hn hd'
    have scaled (a b : Nat) : divNearest (n * a) (d * b) = divNearest (n' * a) (d' * b) := by
      rw [← divNearest_mul_right _ _ (Nat.pos_of_ne_zero hd'),
        ← divNearest_mul_right (n' * a) _ (Nat.pos_of_ne_zero hd)]
      congr 1
      · rw [Nat.mul_right_comm, cross, Nat.mul_right_comm]
      · ring
    have up (a : Nat) : divNearest n (d * a) = divNearest n' (d' * a) := by
      simpa using scaled 1 a
    have down (a : Nat) : divNearest (n * a) d = divNearest (n' * a) d' := by
      simpa using scaled a 1
    simp only [encode, hn, hn', if_false, floorLog2_eq_log hn hd, floorLog2_eq_log hn' hd', same,
      up, down]

theorem encode_mul_pow (f : Format) (n : Nat) {d : Nat} (hd : d ≠ 0) (k : Nat) :
    encode f (n * 2 ^ k) (d * 2 ^ k) = encode f n d := by
  refine encode_congr f (by positivity) hd ?_
  push_cast
  rw [mul_div_mul_right _ _ (by positivity)]

/-- A factor of the mantissa may be moved into the exponent. -/
theorem encodeScaled_mul_pow (f : Format) (m : Nat) (q : Int) (k : Nat) :
    encodeScaled f (m * 2 ^ k) (q - k) = encodeScaled f m q := by
  unfold encodeScaled
  simp only [Nat.pow_eq]
  by_cases whole : 0 ≤ q - k
  · have scale : 2 ^ k * 2 ^ (q - k).toNat = 2 ^ q.toNat := by
      rw [← Nat.pow_add]; congr 1; omega
    rw [if_pos whole, if_pos (by omega), Nat.mul_assoc, scale]
  · rw [if_neg whole]
    by_cases was : 0 ≤ q
    · have top : m * 2 ^ k = m * 2 ^ q.toNat * 2 ^ (-(q - k)).toNat := by
        rw [Nat.mul_assoc, ← Nat.pow_add]; congr 2; omega
      rw [if_pos was, top, ← encode_mul_pow f (m * 2 ^ q.toNat) one_ne_zero, Nat.one_mul]
    · have bottom : 2 ^ (-(q - k)).toNat = 2 ^ (-q).toNat * 2 ^ k := by
        rw [← Nat.pow_add]; congr 1; omega
      rw [if_neg was, bottom, encode_mul_pow f m (by positivity)]

/-! ## Canonical forms -/

namespace Format

/-- The bit pattern, without sign, of the canonical form `m · 2^q`. -/
def pattern (f : Format) (m : Nat) (q : Int) : Nat := (q - f.least).toNat * 2 ^ f.fraction + m

/-- A canonical form `m · 2^q` of a finite number of a format. -/
structure Holds (f : Format) (m : Nat) (q : Int) : Prop where
  /-- The exponent is in range. -/
  least : f.least ≤ q
  /-- The mantissa has at most one bit more than the fraction. -/
  short : m < 2 ^ (f.fraction + 1)
  /-- It has that bit, unless the exponent is the least one. -/
  leading : q = f.least ∨ 2 ^ f.fraction ≤ m
  /-- The number is below infinity. -/
  finite : f.pattern m q < f.infinity

theorem infinity_lt_signBit (f : Format) : f.infinity < f.signBit := by
  have pos : 0 < 2 ^ f.exponent := by positivity
  rw [infinity, signBit, Nat.pow_eq, Nat.pow_eq, Nat.pow_eq, Nat.pow_add]
  exact Nat.mul_lt_mul_of_pos_right (by omega) (by positivity)

end Format

theorem double_least : double.least = -1074 := by decide

theorem double_infinity : double.infinity = 2047 * 2 ^ 52 := by decide

theorem double_pattern (m : Nat) (q : Int) :
    double.pattern m q = (q - -1074).toNat * 2 ^ 52 + m := by
  rw [Format.pattern, double_least, double]

theorem double_signBit : double.signBit = 2 ^ 63 := by decide

theorem single_least : single.least = -149 := by decide

theorem single_infinity : single.infinity = 255 * 2 ^ 23 := by decide

theorem single_pattern (m : Nat) (q : Int) :
    single.pattern m q = (q - -149).toNat * 2 ^ 23 + m := by
  rw [Format.pattern, single_least, single]

/-- What a pattern with a sign is taken apart into. -/
theorem decode_withSign_magnitude (f : Format) (s : Bool) {magnitude : Nat}
    (h : magnitude < f.signBit) :
    (f.signBit ≤ withSign f s magnitude ↔ s = true) ∧ withSign f s magnitude % f.signBit = magnitude := by
  cases s with
  | false => simp [withSign, Nat.mod_eq_of_lt h, h]
  | true => simp [withSign, Nat.mod_eq_of_lt h]

/-- **A canonical form is read off its own pattern.** -/
theorem decode_withSign {f : Format} {m : Nat} {q : Int} (h : f.Holds m q) (s : Bool) :
    decode f (withSign f s (f.pattern m q)) = .finite s m q := by
  obtain ⟨sign, magnitude⟩ :=
    decode_withSign_magnitude f s (h.finite.trans f.infinity_lt_signBit)
  have pos : 0 < 2 ^ f.fraction := by positivity
  have negative : decide (f.signBit ≤ withSign f s (f.pattern m q)) = s := by
    cases s <;> simp [sign]
  unfold decode
  simp only [magnitude, negative, Nat.pow_eq]
  rw [if_neg (Nat.lt_asymm h.finite), if_neg (Nat.ne_of_lt h.finite)]
  have short := h.short
  rw [Nat.pow_succ] at short
  have below := h.least
  rcases Nat.lt_or_ge m (2 ^ f.fraction) with small | large
  · obtain rfl := h.leading.resolve_right (Nat.not_le.mpr small)
    simp [Format.pattern, Nat.div_eq_of_lt small, Nat.mod_eq_of_lt small]
  · obtain ⟨part, rfl⟩ : ∃ part, m = part + 2 ^ f.fraction := ⟨m - 2 ^ f.fraction, by omega⟩
    have split : f.pattern (part + 2 ^ f.fraction) q =
        part + 2 ^ f.fraction * ((q - f.least).toNat + 1) := by
      rw [Format.pattern]; ring
    have inside : part < 2 ^ f.fraction := by omega
    rw [split, Nat.add_mul_div_left _ _ pos, Nat.add_mul_mod_self_left, Nat.div_eq_of_lt inside,
      Nat.mod_eq_of_lt inside, if_neg (by omega)]
    congr 1
    push_cast
    omega

/-- A pattern is its sign and its magnitude. -/
theorem withSign_mod {f : Format} {bits : Nat} (bound : bits < 2 * f.signBit) :
    withSign f (decide (f.signBit ≤ bits)) (bits % f.signBit) = bits := by
  unfold withSign
  by_cases sign : f.signBit ≤ bits
  · rw [Nat.mod_eq_sub_mod sign, Nat.mod_eq_of_lt (by omega)]
    simp [sign]
  · rw [Nat.mod_eq_of_lt (by omega)]
    simp [sign]

/-- **Only canonical forms are read.** -/
theorem Format.holds_of_decode {f : Format} {bits m : Nat} {s : Bool} {q : Int}
    (h : decode f bits = .finite s m q) (bound : bits < 2 * f.signBit) :
    f.Holds m q ∧ bits = withSign f s (f.pattern m q) := by
  have pos : 0 < 2 ^ f.fraction := by positivity
  have shape := withSign_mod bound
  unfold decode at h
  simp only [Nat.pow_eq] at h
  split at h
  · cases h
  · split at h
    · cases h
    · next noNan noInf =>
      have finite : bits % f.signBit < f.infinity := by omega
      have parts := Nat.div_add_mod (bits % f.signBit) (2 ^ f.fraction)
      have inside := Nat.mod_lt (bits % f.signBit) pos
      suffices f.pattern m q = bits % f.signBit ∧ s = decide (f.signBit ≤ bits) ∧ f.least ≤ q ∧
          m < 2 ^ (f.fraction + 1) ∧ (q = f.least ∨ 2 ^ f.fraction ≤ m) by
        obtain ⟨same, rfl, least, short, leading⟩ := this
        exact ⟨⟨least, short, leading, same ▸ finite⟩, same ▸ shape.symm⟩
      split at h
      · next field =>
        obtain ⟨rfl, rfl, rfl⟩ := Reading.finite.inj h
        rw [field] at parts
        refine ⟨?_, rfl, Int.le_refl _, ?_, .inl rfl⟩
        · rw [Format.pattern]
          simpa using parts
        · rw [Nat.pow_succ]
          omega
      · next field =>
        obtain ⟨rfl, rfl, rfl⟩ := Reading.finite.inj h
        obtain ⟨j, hj⟩ := Nat.exists_eq_succ_of_ne_zero field
        rw [hj] at parts ⊢
        refine ⟨?_, rfl, by omega, ?_, .inr (Nat.le_add_left _ _)⟩
        · have up : (f.least + (j.succ : Nat) - 1 - f.least).toNat = j := by omega
          rw [Format.pattern, up]
          linarith
        · rw [Nat.pow_succ]
          omega

/-- **A canonical form is encoded as its own pattern.** -/
theorem encodeScaled_of_holds {f : Format} {m : Nat} {q : Int} (h : f.Holds m q) :
    encodeScaled f m q = f.pattern m q := by
  by_cases zero : m = 0
  · subst zero
    have bottom : q = f.least := h.leading.resolve_right (Nat.not_le.mpr (by positivity))
    simp [encodeScaled, encode, Format.pattern, bottom]
  have log := Nat.log2_lt zero |>.mpr h.short
  have exponent : max ((m.log2 : Int) + q - f.fraction) f.least = q := by
    have least := h.least
    rcases h.leading with bottom | leading
    · omega
    · have := (Nat.le_log2 zero).mpr leading
      omega
  have place : min (f.pattern m q) f.infinity = f.pattern m q := Nat.min_eq_left h.finite.le
  unfold encodeScaled encode
  simp only [Nat.pow_eq]
  by_cases whole : 0 ≤ q
  · have pos : 0 < 2 ^ q.toNat := by positivity
    have nonzero : m * 2 ^ q.toNat ≠ 0 := by positivity
    have reach : floorLog2 (m * 2 ^ q.toNat) 1 = m.log2 + q := by
      have := floorLog2_pow nonzero 0
      rw [Nat.pow_zero] at this
      rw [this, log2_mul_pow zero]
      omega
    rw [if_pos whole, if_neg nonzero, reach, exponent, if_pos whole, Nat.one_mul,
      divNearest_mul_self _ pos]
    exact place
  · have pos : 0 < 2 ^ (-q).toNat := by positivity
    have reach : floorLog2 m (2 ^ (-q).toNat) = m.log2 + q := by
      rw [floorLog2_pow zero]
      omega
    rw [if_neg whole, if_neg zero, reach, exponent, if_neg whole, divNearest_mul_self _ pos]
    exact place

/-! ## Bits of numbers -/

open Float.Model.UnpackedFloat

/-- Exactly the patterns above infinity are those of what is not a number. -/
theorem isNaNBits_iff {spec : Float.Model.Format} {b : BitVec spec.numBits} :
    isNaNBits b ↔ (2 ^ spec.exponentBits - 1) * 2 ^ spec.mantissaBitsWithoutImplicit <
      b.toNat % 2 ^ (spec.exponentBits + spec.mantissaBitsWithoutImplicit) := by
  generalize hm : spec.mantissaBitsWithoutImplicit = frac
  generalize he : spec.exponentBits = wide
  have exponent : unpackExponent b = -1#_ ↔ b.toNat / 2 ^ frac % 2 ^ wide = 2 ^ wide - 1 := by
    rw [← BitVec.toNat_inj, unpackExponent_def, BitVec.extractLsb'_toNat,
      BitVec.neg_one_eq_allOnes, BitVec.toNat_allOnes, Nat.shiftRight_eq_div_pow, hm, he]
  have mantissa : unpackMantissa b = 0#_ ↔ b.toNat % 2 ^ frac = 0 := by
    rw [← BitVec.toNat_inj, unpackMantissa_def, BitVec.extractLsb'_toNat, Nat.shiftRight_zero, hm]
    simp
  have below : b.toNat / 2 ^ frac % 2 ^ wide < 2 ^ wide := Nat.mod_lt _ (by positivity)
  have inside : b.toNat % 2 ^ frac < 2 ^ frac := Nat.mod_lt _ (by positivity)
  rw [isNaNBits, decide_eq_true_iff, exponent, ne_eq, mantissa, Nat.add_comm wide, Nat.pow_add,
    Nat.mod_mul]
  constructor
  · rintro ⟨full, rest⟩
    rw [full, Nat.mul_comm]
    omega
  · intro above
    have full : b.toNat / 2 ^ frac % 2 ^ wide = 2 ^ wide - 1 := by
      by_contra less
      have := Nat.mul_le_mul_left (2 ^ frac)
        (show b.toNat / 2 ^ frac % 2 ^ wide + 1 ≤ 2 ^ wide - 1 by omega)
      rw [Nat.mul_add] at this
      rw [Nat.mul_comm] at above
      omega
    rw [full, Nat.mul_comm] at above
    exact ⟨full, by omega⟩

/-- A pattern that is not above infinity is kept as it is. -/
theorem toBits_ofMagnitude (s : Bool) {magnitude : Nat} (h : magnitude ≤ double.infinity) :
    (ofMagnitude s magnitude).toBits.toNat = withSign double s magnitude := by
  obtain ⟨-, low⟩ := decode_withSign_magnitude double s (h.trans_lt double.infinity_lt_signBit)
  have bound : withSign double s magnitude < 2 ^ 64 := by
    rw [double_infinity] at h
    rw [withSign, double_signBit]
    split <;> omega
  have kept : (withSign double s magnitude).toUInt64.toNat = withSign double s magnitude :=
    UInt64.toNat_ofNat_of_lt' bound
  have number : @isNaNBits .binary64 (withSign double s magnitude).toUInt64.toBitVec = false := by
    rw [← Bool.not_eq_true, isNaNBits_iff, UInt64.toNat_toBitVec, kept, Nat.not_lt]
    exact low.trans_le h
  have packed := @pack_unpack .binary64 (withSign double s magnitude).toUInt64.toBitVec (by decide)
  rw [number, if_neg Bool.false_ne_true] at packed
  exact (congrArg BitVec.toNat packed).trans kept

/-- A canonical form is what its number stands for. -/
theorem read_ofMagnitude {m : Nat} {q : Int} (h : double.Holds m q) (s : Bool) :
    read (ofMagnitude s (double.pattern m q)) = .finite s m q := by
  rw [read, toBits_ofMagnitude s h.finite.le, decode_withSign h]

/-- A single as a double has the same value, with a mantissa that fills the wider format. -/
theorem exists_double_holds {m : Nat} {q : Int} (h : single.Holds m q) :
    ∃ k : Nat, double.Holds (m * 2 ^ k) (q - k) := by
  obtain ⟨least, short, leading, finite⟩ := h
  rw [single_least] at least leading
  rw [single_pattern, single_infinity] at finite
  by_cases zero : m = 0
  -- zero has the least exponent in either format
  · have bottom : q - (925 : Nat) = double.least := by
      have := leading.resolve_right (by rw [zero, single]; decide)
      rw [double_least]
      omega
    subst zero
    simp only [Nat.zero_mul]
    refine ⟨925, bottom.ge, by positivity, .inl bottom, ?_⟩
    rw [bottom, double_pattern, double_least, double_infinity]
    decide
  have top : q < 106 := by omega
  have log : m.log2 < 24 := (Nat.log2_lt zero).mpr short
  clear short leading finite
  have pos : 0 < 2 ^ (52 - m.log2) := by positivity
  have high : m * 2 ^ (52 - m.log2) < 2 ^ 53 := by
    calc m * 2 ^ (52 - m.log2) < 2 ^ (m.log2 + 1) * 2 ^ (52 - m.log2) :=
          Nat.mul_lt_mul_of_pos_right Nat.lt_log2_self pos
      _ = 2 ^ 53 := by rw [← Nat.pow_add]; congr 1; omega
  have low : 2 ^ 52 ≤ m * 2 ^ (52 - m.log2) := by
    calc 2 ^ 52 = 2 ^ m.log2 * 2 ^ (52 - m.log2) := by rw [← Nat.pow_add]; congr 1; omega
      _ ≤ m * 2 ^ (52 - m.log2) := Nat.mul_le_mul_right _ (Nat.log2_self_le zero)
  refine ⟨52 - m.log2, ?_, high, .inr low, ?_⟩
  · rw [double_least]
    omega
  · have room : (q - (52 - m.log2 : Nat) - -1074).toNat + 2 ≤ 2047 := by omega
    have := Nat.mul_le_mul_right (2 ^ 52) room
    rw [double_pattern, double_infinity]
    linarith

/-- A finite single as a double: the same value, split in another way. -/
theorem widen_eq {y : Float32} {s : Bool} {m : Nat} {q : Int} (reading : readSingle y = .finite s m q) :
    ∃ k : Nat, double.Holds (m * 2 ^ k) (q - k) ∧
      widen y = ofMagnitude s (double.pattern (m * 2 ^ k) (q - k)) := by
  obtain ⟨holds, -⟩ := Format.holds_of_decode reading (UInt32.toNat_lt y.toBits)
  obtain ⟨k, wide⟩ := exists_double_holds holds
  refine ⟨k, wide, ?_⟩
  rw [← encodeScaled_of_holds wide, encodeScaled_mul_pow]
  simp only [widen, reading]

theorem isFinite_iff {x : Float} : isFinite x ↔ ∃ s m q, read x = .finite s m q := by
  unfold isFinite
  cases read x <;> simp

theorem isFiniteSingle_iff {y : Float32} :
    isFiniteSingle y ↔ ∃ s m q, readSingle y = .finite s m q := by
  unfold isFiniteSingle
  cases readSingle y <;> simp

theorem isFinite_widen {y : Float32} (h : isFiniteSingle y) : isFinite (widen y) := by
  obtain ⟨s, m, q, reading⟩ := isFiniteSingle_iff.mp h
  obtain ⟨k, wide, there⟩ := widen_eq reading
  exact isFinite_iff.mpr ⟨s, _, _, by rw [there, read_ofMagnitude wide]⟩

/-- **A finite single is narrowed back from the double it is widened to.** -/
theorem narrow_widen {y : Float32} (h : isFiniteSingle y) : narrow (widen y) = y := by
  obtain ⟨s, m, q, reading⟩ := isFiniteSingle_iff.mp h
  obtain ⟨holds, bits⟩ := Format.holds_of_decode reading (UInt32.toNat_lt y.toBits)
  obtain ⟨k, wide, there⟩ := widen_eq reading
  calc narrow (widen y) = ofMagnitudeSingle s (encodeScaled single (m * 2 ^ k) (q - k)) := by
        simp only [narrow, there, read_ofMagnitude wide]
    _ = ofMagnitudeSingle s (single.pattern m q) := by
        rw [encodeScaled_mul_pow, encodeScaled_of_holds holds]
    _ = Float32.ofBits y.toBits.toNat.toUInt32 := by rw [ofMagnitudeSingle, bits]
    _ = y := by rw [Nat.toUInt32_eq, UInt32.ofNat_toNat, Float32.ofBits_toBits]

/-! ## What is not finite -/

theorem decode_eq_nan {f : Format} {bits : Nat} (h : decode f bits = .nan) :
    f.infinity < bits % f.signBit := by
  unfold decode at h
  by_contra below
  simp only [below, if_false] at h
  split at h
  · cases h
  · split at h <;> cases h

theorem decode_eq_infinite {f : Format} {bits : Nat} {s : Bool} (h : decode f bits = .infinite s) :
    bits % f.signBit = f.infinity ∧ s = decide (f.signBit ≤ bits) := by
  unfold decode at h
  dsimp only at h
  split at h
  · cases h
  · split at h
    · next same =>
      cases h
      exact ⟨same, rfl⟩
    · split at h <;> cases h

/-- There is one double that is not a number. -/
theorem eq_nan_of_read {x : Float} (h : read x = .nan) : x = nan := by
  have bits : @isNaNBits .binary64 x.toBits.toBitVec := isNaNBits_iff.mpr (decode_eq_nan h)
  obtain ⟨exponent, mantissa⟩ := of_decide_eq_true bits
  have same := x.toModel.valid.eq_packedNaN exponent mantissa
  rw [← Float.toBits_inj, ← UInt64.toBitVec_inj]
  exact same

/-- There are two infinities. -/
theorem eq_ofMagnitude_of_read {x : Float} {s : Bool} (h : read x = .infinite s) :
    x = ofMagnitude s double.infinity := by
  obtain ⟨magnitude, sign⟩ := decode_eq_infinite h
  have bits := withSign_mod (f := double) (UInt64.toNat_lt x.toBits)
  rw [← Float.toBits_inj, ← UInt64.toNat_inj, toBits_ofMagnitude s le_rfl, ← magnitude, sign, bits]

/-! ## Whole parts -/

/-- The whole part of `m · 2^q` is its floor. -/
theorem wholeDown_eq_floor (m : Nat) (q : Int) : wholeDown m q = ⌊(m : ℚ) * 2 ^ q⌋₊ := by
  unfold wholeDown
  split
  · next whole =>
    obtain ⟨k, rfl⟩ := Int.eq_ofNat_of_zero_le whole
    simp only [Int.toNat_natCast, Nat.pow_eq, zpow_natCast]
    exact_mod_cast (Nat.floor_natCast (R := ℚ) (m * 2 ^ k)).symm
  · next fraction =>
    obtain ⟨k, rfl⟩ : ∃ k : Nat, q = -k := ⟨(-q).toNat, by omega⟩
    simp only [neg_neg, Int.toNat_natCast, Nat.pow_eq, zpow_neg, zpow_natCast, ← div_eq_mul_inv]
    exact_mod_cast (Nat.floor_div_eq_div (K := ℚ) m (2 ^ k)).symm

end Blockwork.Binary
