import Blockwork.Decimal.Numeral
import Blockwork.Decimal.Written
import Blockwork.Proofs.Decimal.Shortest
import Blockwork.Proofs.Json.Numerals
import Blockwork.Proofs.Text
import Blockwork.Proofs.Zeros

/-!
# Written numbers are read back

Numbers in plain notation are read as they were (`float?_plain`, `single?_plain`), those that are not
finite included.  What actors see of a number is read as that number but for the sign of a zero
(`float?_display_unsigned`), which is not shown.

## What is load-bearing

* `positional_cases`: plain notation consists of digits with at most one point, at least one of them before
  it, and what they are read as has the value that was written.  Whether zeros are put behind the digits, a
  point between them or zeros before them is settled there, once for both widths.
* A number is written without commas and blanks (`isPart_plain`), so it can stand between two commas.
* There is one number that is not a number, and there are two infinities, so nothing is lost when these are
  written as words.
-/

namespace Blockwork

namespace Text

/-! ## Values of digits -/

theorem digitsValue_toDigits (n : Nat) : digitsValue (Nat.toDigits 10 n) = n := by
  rw [digitsValue_eq]
  exact Nat.ofDigitChars_toDigits (by decide) (by decide)

theorem digitsValue_append (as bs : List Char) :
    digitsValue (as ++ bs) = digitsValue as * 10 ^ bs.length + digitsValue bs := by
  simp only [digitsValue_eq]
  rw [digitsAfter_append, digitsAfter_eq, Nat.pow_eq]

/-- Zeros in front count nothing. -/
theorem digitsValue_zeros_append (k : Nat) (cs : List Char) :
    digitsValue (List.replicate k '0' ++ cs) = digitsValue cs := by
  simp only [digitsValue_eq]
  induction k with
  | zero => rfl
  | succ k ih => exact ih

end Text

theorem Json.IsWhole.run {ws : List Char} (h : Json.IsWhole ws) : Json.IsRun ws := ⟨h.nonempty, h.digits⟩

namespace Numeral

open Json (IsRun)

/-! ## Digits with a point -/

theorem decimal?_run {ws : List Char} (run : IsRun ws) :
    decimal? ws = some ⟨Text.digitsValue ws, 0⟩ := by
  obtain ⟨front, back⟩ := @Json.span_digits ws [] run.digits ⟨rfl, rfl⟩
  rw [List.append_nil] at front back
  simp [decimal?, front, back, run.nonempty, exponent?]

theorem decimal?_pointed {ws fs : List Char} (run : IsRun ws) (digits : ∀ c ∈ fs, c.isDigit) :
    decimal? (ws ++ '.' :: fs) = some ⟨Text.digitsValue (ws ++ fs), -fs.length⟩ := by
  obtain ⟨front, back⟩ := @Json.span_digits ws ('.' :: fs) run.digits ⟨rfl, rfl⟩
  obtain ⟨after, rest⟩ := @Json.span_digits fs [] digits ⟨rfl, rfl⟩
  rw [List.append_nil] at after rest
  simp [decimal?, front, back, after, rest, run.nonempty, exponent?]

/-- What starts with a digit is not a word. -/
theorem magnitude?_of_digit {c : Char} (digit : c.isDigit) (cs : List Char) :
    magnitude? (c :: cs) = (decimal? (c :: cs)).map .decimal := by
  have small : c.toLower = c := by
    simp only [Char.isDigit, Bool.and_eq_true, decide_eq_true_eq, ge_iff_le, UInt32.le_iff_toNat_le] at digit
    change 48 ≤ c.val.toNat ∧ c.val.toNat ≤ 57 at digit
    unfold Char.toLower
    rw [dif_neg]
    rw [ge_iff_le, UInt32.le_iff_toNat_le]
    change ¬ (65 ≤ c.val.toNat ∧ _)
    omega
  have word {t : String} {d : Char} {ds : List Char} (spelled : t.toList = d :: ds)
      (letter : d.isDigit = false) : String.ofList ((c :: cs).map Char.toLower) ≠ t := by
    intro same
    rw [← same, String.toList_ofList, List.map_cons, small] at spelled
    rw [(List.cons.inj spelled).1, letter] at digit
    cases digit
  simp only [magnitude?, word (t := "inf") rfl rfl, word (t := "infinity") rfl rfl,
    word (t := "nan") rfl rfl, decide_false, Bool.or_false, Bool.false_eq_true, if_false]

/-- A text that starts with a digit has no sign; one with a minus sign in front is read without it. -/
theorem read?_signed (negative : Bool) {s : String} {c : Char} {cs : List Char} (text : s.toList = c :: cs)
    (digit : c.isDigit) : read? (Decimal.signed negative s) =
      (decimal? s.toList).map fun d => (negative, .decimal d) := by
  rw [text]
  cases negative with
  | true =>
      have minus : (Decimal.signed true s).toList = '-' :: c :: cs := by simp [Decimal.signed, text]
      rw [read?, minus]
      simp only [magnitude?_of_digit digit, Option.map_map]
      rfl
  | false =>
      have plain : (Decimal.signed false s).toList = c :: cs := text
      rw [read?, plain]
      split
      · next same =>
        rw [(List.cons.inj same).1] at digit
        exact absurd digit (by decide)
      · next same =>
        rw [(List.cons.inj same).1] at digit
        exact absurd digit (by decide)
      · simp only [magnitude?_of_digit digit, Option.map_map]
        rfl

end Numeral

namespace Binary

/-! ## Words and zeros -/

/-- There is one single that is not a number. -/
theorem eq_nan_of_readSingle {y : Float32} (h : readSingle y = .nan) : y = narrow nan := by
  have bits : @Float.Model.UnpackedFloat.isNaNBits .binary32 y.toBits.toBitVec :=
    isNaNBits_iff.mpr (decode_eq_nan h)
  obtain ⟨exponent, mantissa⟩ := of_decide_eq_true bits
  have same := y.toModel.valid.eq_packedNaN exponent mantissa
  rw [← Float32.toBits_inj, ← UInt32.toBitVec_inj]
  exact same

/-- There are two infinite singles. -/
theorem eq_ofMagnitudeSingle_of_read {y : Float32} {s : Bool} (h : readSingle y = .infinite s) :
    y = ofMagnitudeSingle s single.infinity := by
  obtain ⟨magnitude, sign⟩ := decode_eq_infinite h
  have bits := withSign_mod (f := single) (UInt32.toNat_lt y.toBits)
  rw [ofMagnitudeSingle, sign, ← magnitude, bits, Nat.toUInt32_eq, UInt32.ofNat_toNat,
    Float32.ofBits_toBits]

/-- A finite double is the pattern of its canonical form. -/
theorem ofMagnitude_of_read {x : Float} {s : Bool} {m : Nat} {q : Int} (reading : read x = .finite s m q) :
    double.Holds m q ∧ ofMagnitude s (double.pattern m q) = x := by
  obtain ⟨holds, bits⟩ := Format.holds_of_decode reading (UInt64.toNat_lt x.toBits)
  refine ⟨holds, ?_⟩
  rw [ofMagnitude, ← bits, Nat.toUInt64_eq, UInt64.ofNat_toNat, Float.ofBits_toBits]

/-- A finite single is the pattern of its canonical form. -/
theorem ofMagnitudeSingle_of_read {y : Float32} {s : Bool} {m : Nat} {q : Int}
    (reading : readSingle y = .finite s m q) :
    single.Holds m q ∧ ofMagnitudeSingle s (single.pattern m q) = y := by
  obtain ⟨holds, bits⟩ := Format.holds_of_decode reading (UInt32.toNat_lt y.toBits)
  refine ⟨holds, ?_⟩
  rw [ofMagnitudeSingle, ← bits, Nat.toUInt32_eq, UInt32.ofNat_toNat, Float32.ofBits_toBits]

/-- What is equal to zero is a zero. -/
theorem eq_ofMagnitude_of_beq {x : Float} (same : (x == 0) = true) : ∃ s, x = ofMagnitude s 0 := by
  obtain ⟨-, -, rfl | ⟨rfl, -⟩ | ⟨rfl, -⟩⟩ := Float.beq_iff_ne_nan_and_eq.mp same
  · exact ⟨false, rfl⟩
  · exact ⟨false, rfl⟩
  · exact ⟨true, rfl⟩

/-- A zero has no sign once it is taken off. -/
theorem unsigned_zero (s : Bool) : unsigned (ofMagnitude s 0) = 0 := by
  cases s <;> rfl

/-- What is not a zero stays as it is. -/
theorem unsigned_of_finite {x : Float} {s : Bool} {m : Nat} {q : Int} (reading : read x = .finite s m q)
    (nonzero : m ≠ 0) : unsigned x = x := by
  rw [unsigned, if_neg]
  intro same
  obtain ⟨s', rfl⟩ := eq_ofMagnitude_of_beq same
  cases s' <;> cases reading <;> exact nonzero rfl

/-- Zero has no bits but its sign. -/
theorem Format.pattern_zero {f : Format} {q : Int} (h : f.Holds 0 q) : f.pattern 0 q = 0 := by
  have bottom : q = f.least := h.leading.resolve_right (Nat.not_le.mpr (by positivity))
  simp [Format.pattern, bottom]

/-- The whole part of a whole number is its value. -/
theorem wholeDown_eq {x : Float} {s : Bool} {m : Nat} {q : Int} (reading : read x = .finite s m q)
    (whole : isWhole x) : ((wholeDown m q : Nat) : ℚ) = m * 2 ^ q := by
  rw [isWhole, reading] at whole
  simp only [Bool.or_eq_true, decide_eq_true_eq, beq_iff_eq] at whole
  unfold wholeDown
  split
  · next up =>
    obtain ⟨j, rfl⟩ := Int.eq_ofNat_of_zero_le up
    simp
  · next down =>
    obtain ⟨j, rfl⟩ : ∃ j : Nat, q = -j := ⟨(-q).toNat, by omega⟩
    rw [neg_neg, Int.toNat_natCast, Nat.pow_eq] at whole ⊢
    have divides : 2 ^ j ∣ m := Nat.dvd_of_mod_eq_zero (whole.resolve_left down)
    rw [Nat.cast_div divides (by positivity), zpow_neg, zpow_natCast, ← div_eq_mul_inv]
    push_cast
    rfl

end Binary

namespace Decimal

open Json (IsRun)

/-! ## Plain notation -/

/-- The digits of a decimal in plain notation: before the point, and after it if there are any. -/
theorem positional_cases (d : Decimal) : ∃ ws fs, IsRun ws ∧ (∀ c ∈ fs, c.isDigit) ∧
    d.positional.toList = ws ++ (if fs = [] then [] else '.' :: fs) ∧
    (⟨Text.digitsValue (ws ++ fs), -fs.length⟩ : Decimal).value = d.value := by
  obtain ⟨c, e⟩ := d
  have digits : (Text.natural c).toList = Nat.toDigits 10 c := by simp [Text.natural]
  unfold positional value
  dsimp only
  split
  · next up =>
    obtain ⟨j, rfl⟩ := Int.eq_ofNat_of_zero_le up
    split
    · next zero =>
      refine ⟨_, [], Json.isRun_toDigits c, by simp, by simp [digits], ?_⟩
      rw [List.append_nil, Text.digitsValue_toDigits, zero]
      simp
    · refine ⟨Nat.toDigits 10 c ++ List.replicate j '0', [],
        ⟨by simp, fun d hd => ?_⟩, by simp, by simp [digits, zeros], ?_⟩
      · rcases List.mem_append.mp hd with hd | hd
        · exact Json.isDigit_toDigits c d hd
        · rw [List.eq_of_mem_replicate hd]
          decide
      · have none : Text.digitsValue (List.replicate j '0') = 0 := by
          rw [← List.append_nil (List.replicate j '0'), Text.digitsValue_zeros_append]
          rfl
        simp [Text.digitsValue_append, Text.digitsValue_toDigits, none]
  · next down =>
    obtain ⟨j, rfl⟩ : ∃ j : Nat, e = -j := ⟨(-e).toNat, by omega⟩
    have positive : 0 < j := by omega
    rw [neg_neg, Int.toNat_natCast, ← String.length_toList, digits]
    split
    · next fits =>
      obtain ⟨cut, length⟩ : ∃ cut, (Nat.toDigits 10 c).length = cut + j :=
        ⟨(Nat.toDigits 10 c).length - j, by omega⟩
      rw [length, Nat.add_sub_cancel]
      have after : ((Nat.toDigits 10 c).drop cut).length = j := by
        rw [List.length_drop]
        omega
      refine ⟨(Nat.toDigits 10 c).take cut, (Nat.toDigits 10 c).drop cut,
        ((Json.isWhole_toDigits c).take (by omega)).run,
        fun d hd => Json.isDigit_toDigits c d (List.mem_of_mem_drop hd), ?_, ?_⟩
      · rw [if_neg (List.ne_nil_of_length_pos (by omega))]
        simp
      · rw [List.take_append_drop, Text.digitsValue_toDigits, after]
    · next long =>
      have after : (List.replicate (j - (Nat.toDigits 10 c).length) '0' ++ Nat.toDigits 10 c).length = j := by
        rw [List.length_append, List.length_replicate]
        omega
      have run := Json.isRun_zeros_append (Json.isRun_toDigits c) (j - (Nat.toDigits 10 c).length)
      refine ⟨['0'], _, Json.isRun_toDigits 0, run.digits, ?_, ?_⟩
      · rw [if_neg run.nonempty]
        simp [digits, zeros]
      · have value : Text.digitsValue
            (['0'] ++ (List.replicate (j - (Nat.toDigits 10 c).length) '0' ++ Nat.toDigits 10 c)) = c :=
          calc
            _ = _ := Text.digitsValue_zeros_append 1 _
            _ = _ := Text.digitsValue_zeros_append _ _
            _ = c := Text.digitsValue_toDigits c
        rw [value, after]

/-- Plain notation of a decimal starts with a digit and is read as a decimal of the same value. -/
theorem read?_positional (negative : Bool) (d : Decimal) : ∃ d' : Decimal,
    Numeral.read? (signed negative d.positional) = some (negative, .decimal d') ∧ d'.value = d.value := by
  obtain ⟨ws, fs, run, digits, text, value⟩ := d.positional_cases
  have read : Numeral.decimal? d.positional.toList = some ⟨Text.digitsValue (ws ++ fs), -fs.length⟩ := by
    rw [text]
    split
    · next none =>
      rw [List.append_nil, Numeral.decimal?_run run, none]
      simp
    · exact Numeral.decimal?_pointed run digits
  refine ⟨_, ?_, value⟩
  cases ws with
  | nil => exact absurd rfl run.nonempty
  | cons c cs =>
      rw [Numeral.read?_signed negative text (run.digits c (List.mem_cons_self ..)), read]
      rfl

theorem float?_of_read {t : String} {s : Bool} {d : Decimal}
    (read : Numeral.read? t = some (s, .decimal d)) :
    Numeral.float? t = some (Binary.ofMagnitude s (d.encode Binary.double)) := by
  rw [Numeral.float?, read]
  rfl

theorem single?_of_read {t : String} {s : Bool} {d : Decimal}
    (read : Numeral.read? t = some (s, .decimal d)) :
    Numeral.single? t = some (Binary.ofMagnitudeSingle s (d.encode Binary.single)) := by
  rw [Numeral.single?, read]
  rfl

theorem encode_read {f : Binary.Format} {m : Nat} {q : Int} (h : f.Holds m q) {d : Decimal}
    (same : d.value = (shortest f .up m q).value) : d.encode f = f.pattern m q := by
  rw [encode_eq_of_value f same, encode_shortest, Binary.encodeScaled_of_holds h]

/-- **Plain notation of a double is read as that double**, whatever the double is. -/
theorem float?_plain (x : Float) : Numeral.float? (plain x) = some x := by
  cases reading : Binary.read x with
  | nan =>
      have shown : plain x = "NaN" := by rw [plain, reading, plainReading]
      rw [shown, Binary.eq_nan_of_read reading]
      rfl
  | infinite s =>
      have shown : plain x = signed s "inf" := by rw [plain, reading, plainReading]
      rw [shown, Binary.eq_ofMagnitude_of_read reading]
      cases s <;> rfl
  | finite s m q =>
      obtain ⟨holds, back⟩ := Binary.ofMagnitude_of_read reading
      obtain ⟨d, read, value⟩ := read?_positional s (shortest Binary.double .up m q)
      rw [plain, reading, plainReading, float?_of_read read, encode_read holds value, back]

/-- **Plain notation of a single is read as that single.** -/
theorem single?_plain (y : Float32) : Numeral.single? (plainSingle y) = some y := by
  cases reading : Binary.readSingle y with
  | nan =>
      have shown : plainSingle y = "NaN" := by rw [plainSingle, reading, plainReading]
      rw [shown, Binary.eq_nan_of_readSingle reading]
      rfl
  | infinite s =>
      have shown : plainSingle y = signed s "inf" := by rw [plainSingle, reading, plainReading]
      rw [shown, Binary.eq_ofMagnitudeSingle_of_read reading]
      cases s <;> rfl
  | finite s m q =>
      obtain ⟨holds, back⟩ := Binary.ofMagnitudeSingle_of_read reading
      obtain ⟨d, read, value⟩ := read?_positional s (shortest Binary.single .up m q)
      rw [plainSingle, reading, plainReading, single?_of_read read, encode_read holds value, back]

/-! ## What actors see -/

theorem positional_whole (n : Nat) : positional ⟨n, 0⟩ = Text.natural n := by
  simp [positional, zeros]

/-- **What actors see of a number is read as that number**, but for the sign of a zero. -/
theorem float?_display_unsigned (x : Float) : Numeral.float? (display x) = some (Binary.unsigned x) := by
  cases reading : Binary.read x with
  | nan =>
      have shown : display x = "NaN" := by simp only [display, plain, reading, plainReading]
      rw [shown, Binary.eq_nan_of_read reading]
      rfl
  | infinite s =>
      have shown : display x = signed s "inf" := by simp only [display, plain, reading, plainReading]
      rw [shown, Binary.eq_ofMagnitude_of_read reading]
      cases s <;> rfl
  | finite s m q =>
      obtain ⟨holds, back⟩ := Binary.ofMagnitude_of_read reading
      by_cases zero : m = 0
      · subst zero
        rw [Binary.Format.pattern_zero holds] at back
        have shown (s : Bool) : display (Binary.ofMagnitude s 0) = "0" := by cases s <;> decide +kernel
        rw [← back, shown, Binary.unsigned_zero]
        rfl
      rw [Binary.unsigned_of_finite reading zero]
      by_cases whole : (Binary.isWhole x && decide (x.abs < 1e15)) = true
      · have value := Binary.wholeDown_eq reading (Bool.and_elim_left whole)
        have nonzero : (Binary.wholeDown m q != 0) = true := by
          rw [bne_iff_ne, ne_eq, ← Nat.cast_eq_zero (R := ℚ), value]
          positivity
        obtain ⟨d, read, same⟩ := read?_positional s ⟨Binary.wholeDown m q, 0⟩
        have encoded : d.encode Binary.double = Binary.double.pattern m q := by
          rw [encodeScaled_eq Binary.double m q (by rw [same, ← value]; simp [Decimal.value]),
            Binary.encodeScaled_of_holds holds]
        simp only [display, reading, whole, if_true, nonzero, Bool.and_true]
        rw [← positional_whole, float?_of_read read, encoded, back]
      · simp only [display, reading, whole, if_false, Bool.false_eq_true]
        exact float?_plain x

end Decimal

/-! ## Numbers between commas -/

namespace Text

/-- A whole number that is not too large is read back. -/
theorem unsigned?_natural {max n : Nat} (most : n ≤ max) : unsigned? max (natural n) = some n := by
  have digits : (natural n).toList = Nat.toDigits 10 n := by simp [natural]
  have run := Json.isRun_toDigits n
  have value : naturalChars? (Nat.toDigits 10 n) = some n := by
    rw [naturalChars?, digitsValue_toDigits]
    simpa using fun c mem => run.digits c mem
  unfold unsigned?
  rw [digits]
  split
  · next sign =>
    have digit := run.digits '+' (by rw [sign]; exact List.mem_cons_self ..)
    cases digit
  · simp only [value, if_pos most]

theorem isPart_natural (n : Nat) : IsPart (natural n) := by
  apply IsPart.of_forall
  intro c mem
  have digit : c.isDigit := Json.isDigit_toDigits n c (by simpa [natural] using mem)
  refine ⟨?_, isBlank_of_isDigit digit⟩
  rintro rfl
  cases digit

end Text

namespace Decimal

/-- The characters of a number in plain notation. -/
def isPlainChar (c : Char) : Bool := c.isDigit || ['-', '.', 'N', 'a', 'i', 'n', 'f'].contains c

theorem isPart_of_isPlainChar {s : String} (h : ∀ c ∈ s.toList, isPlainChar c = true) : Text.IsPart s := by
  apply Text.IsPart.of_forall
  intro c mem
  have plain := h c mem
  rw [isPlainChar, Bool.or_eq_true] at plain
  rcases plain with digit | mark
  · refine ⟨?_, Text.isBlank_of_isDigit digit⟩
    rintro rfl
    cases digit
  · have each : ['-', '.', 'N', 'a', 'i', 'n', 'f'].all (fun c => c != ',' && !Text.isBlank c) = true := rfl
    simpa using List.all_eq_true.mp each c (List.contains_iff_mem.mp mark)

theorem isPlainChar_signed {negative : Bool} {s : String} (h : ∀ c ∈ s.toList, isPlainChar c = true) :
    ∀ c ∈ (signed negative s).toList, isPlainChar c = true := by
  cases negative with
  | false => exact h
  | true =>
      intro c mem
      rcases (by simpa [signed] using mem : c = '-' ∨ c ∈ s.toList) with rfl | mem
      · rfl
      · exact h c mem

theorem isPlainChar_positional (d : Decimal) : ∀ c ∈ d.positional.toList, isPlainChar c = true := by
  intro c mem
  obtain ⟨ws, fs, run, digits, text, -⟩ := d.positional_cases
  have kinds : c ∈ ws ∨ c = '.' ∨ c ∈ fs := by
    rw [text, List.mem_append] at mem
    split_ifs at mem with none
    · exact mem.imp_right (by simp)
    · simpa using mem
  rcases kinds with front | rfl | back
  · simp [isPlainChar, run.digits c front]
  · rfl
  · simp [isPlainChar, digits c back]

theorem isPlainChar_plainReading (f : Binary.Format) (r : Binary.Reading) :
    ∀ c ∈ (plainReading f r).toList, isPlainChar c = true := by
  cases r with
  | nan =>
      have word : "NaN".toList.all isPlainChar = true := rfl
      exact List.all_eq_true.mp word
  | infinite s =>
      have word : "inf".toList.all isPlainChar = true := rfl
      exact isPlainChar_signed (List.all_eq_true.mp word)
  | finite s m q => exact isPlainChar_signed (isPlainChar_positional _)

/-- There is neither a comma nor a blank in a written number. -/
theorem isPart_plain (x : Float) : Text.IsPart (plain x) :=
  isPart_of_isPlainChar (isPlainChar_plainReading _ _)

theorem isPart_plainSingle (y : Float32) : Text.IsPart (plainSingle y) :=
  isPart_of_isPlainChar (isPlainChar_plainReading _ _)

theorem isPart_display (x : Float) : Text.IsPart (display x) := by
  unfold display
  split
  · split
    · apply isPart_of_isPlainChar
      apply isPlainChar_signed
      rw [← positional_whole]
      exact isPlainChar_positional _
    · exact isPart_plain x
  · exact isPart_plain x

end Decimal

end Blockwork
