import Blockwork.Json.Node

/-!
# Written numbers are numerals

Every number that is written in a document is a well-formed numeral: digits without a superfluous
zero in front, then possibly a point with digits after it, then possibly a signed exponent.  Nothing
is said here about the value that is read from it; `Decimal.document?` writes the fewest digits that
identify a number, and the reader of numerals rounds along the way, so the two need not agree.

The only fact about digits that takes an argument is that those of a positive number do not start
with a zero (`head_toDigits_ne_zero`).
-/

namespace Blockwork.Json

/-! ## Runs of digits -/

/-- A run of digits that may stand before the point of a numeral. -/
structure IsWhole (ws : List Char) : Prop where
  /-- There is a digit. -/
  nonempty : ws ≠ []
  /-- There is nothing else. -/
  digits : ∀ c ∈ ws, c.isDigit
  /-- A zero in front stands alone. -/
  lead : ∀ t, ws = '0' :: t → t = []

/-- A run of digits that may stand after the point, or in an exponent. -/
structure IsRun (ds : List Char) : Prop where
  /-- There is a digit. -/
  nonempty : ds ≠ []
  /-- There is nothing else. -/
  digits : ∀ c ∈ ds, c.isDigit

theorem isDigit_toDigits (n : Nat) : ∀ c ∈ Nat.toDigits 10 n, c.isDigit :=
  fun _ h => Nat.isDigit_of_mem_toDigits (by decide) (by decide) h

theorem isRun_toDigits (n : Nat) : IsRun (Nat.toDigits 10 n) :=
  ⟨Nat.toDigits_ne_nil, isDigit_toDigits n⟩

/-- The digits of a positive number do not start with a zero. -/
theorem head_toDigits_ne_zero {n : Nat} (pos : 0 < n) (t : List Char) :
    Nat.toDigits 10 n ≠ '0' :: t := by
  induction n using Nat.strongRecOn generalizing t with
  | ind n ih =>
      by_cases small : n < 10
      · rw [Nat.toDigits_of_lt_base small]
        have nonzero : ∀ k < 10, 0 < k → k.digitChar ≠ '0' := by decide
        intro h
        exact nonzero n small pos (List.cons.inj h).1
      · rw [Nat.toDigits_of_base_le (by decide) (by omega)]
        cases front : Nat.toDigits 10 (n / 10) with
        | nil => exact absurd front Nat.toDigits_ne_nil
        | cons c cs =>
            intro h
            have first : c = '0' := (List.cons.inj h).1
            exact ih (n / 10) (by omega) (by omega) cs (first ▸ front)

theorem isWhole_toDigits (n : Nat) : IsWhole (Nat.toDigits 10 n) := by
  refine ⟨Nat.toDigits_ne_nil, isDigit_toDigits n, fun t h => ?_⟩
  rcases Nat.eq_zero_or_pos n with rfl | pos
  · rw [Nat.toDigits_zero] at h
    exact (List.cons.inj h).2.symm
  · exact absurd h (head_toDigits_ne_zero pos t)

/-- Any number of leading digits may stand before a point. -/
theorem IsWhole.take {ws : List Char} (h : IsWhole ws) {k : Nat} (pos : 0 < k) :
    IsWhole (ws.take k) := by
  obtain ⟨nonempty, digits, lead⟩ := h
  refine ⟨fun e => ?_, fun c hc => digits c (List.mem_of_mem_take hc), fun t e => ?_⟩
  · rcases List.take_eq_nil_iff.mp e with rfl | rfl
    · exact absurd pos (Nat.lt_irrefl 0)
    · exact nonempty rfl
  · cases ws with
    | nil => exact absurd rfl nonempty
    | cons c cs =>
        obtain ⟨k, rfl⟩ : ∃ j, k = j + 1 := ⟨k - 1, by omega⟩
        rw [List.take_succ_cons] at e
        obtain ⟨rfl, rfl⟩ := List.cons.inj e
        rw [lead cs rfl, List.take_nil]

/-- Zeros after the digits of a positive number change nothing in front. -/
theorem isWhole_toDigits_zeros {n : Nat} (pos : n ≠ 0) (k : Nat) :
    IsWhole (Nat.toDigits 10 n ++ List.replicate k '0') := by
  refine ⟨by simp, fun c hc => ?_, fun t e => ?_⟩
  · rcases List.mem_append.mp hc with hc | hc
    · exact isDigit_toDigits n c hc
    · rw [List.eq_of_mem_replicate hc]
      decide
  · cases front : Nat.toDigits 10 n with
    | nil => exact absurd front Nat.toDigits_ne_nil
    | cons c cs =>
        rw [front] at e
        have first : c = '0' := (List.cons.inj e).1
        exact absurd (first ▸ front) (head_toDigits_ne_zero (Nat.pos_of_ne_zero pos) cs)

/-! ## Numerals -/

/-- What may follow the digits of a numeral: nothing, or a signed exponent. -/
inductive IsExponent : List Char → Prop where
  /-- No exponent. -/
  | absent : IsExponent []
  /-- A signed exponent. -/
  | signed {sign : Char} {ds : List Char} (h : sign = '+' ∨ sign = '-') (run : IsRun ds) :
      IsExponent ('e' :: sign :: ds)

/-- A numeral without its sign. -/
inductive IsMagnitude : List Char → Prop where
  /-- Digits and an exponent. -/
  | plain {ws es : List Char} (whole : IsWhole ws) (exponent : IsExponent es) :
      IsMagnitude (ws ++ es)
  /-- Digits, a point, more digits and an exponent. -/
  | pointed {ws fs es : List Char} (whole : IsWhole ws) (fraction : IsRun fs)
      (exponent : IsExponent es) : IsMagnitude (ws ++ '.' :: (fs ++ es))

theorem IsExponent.isSome {es : List Char} (h : IsExponent es) : (exponentPart? es).isSome := by
  cases h with
  | absent => rfl
  | signed sign run =>
      obtain ⟨nonempty, digits⟩ := run
      rcases sign with rfl | rfl <;> simpa [exponentPart?, nonempty] using digits

theorem IsExponent.head {es : List Char} (h : IsExponent es) :
    es.takeWhile Char.isDigit = [] ∧ es.dropWhile Char.isDigit = es := by
  cases h <;> simp [List.takeWhile, List.dropWhile]

/-- The digits in front of a text that does not start with one. -/
theorem span_digits {ws rest : List Char} (digits : ∀ c ∈ ws, c.isDigit)
    (head : rest.takeWhile Char.isDigit = [] ∧ rest.dropWhile Char.isDigit = rest) :
    (ws ++ rest).takeWhile Char.isDigit = ws ∧ (ws ++ rest).dropWhile Char.isDigit = rest := by
  rw [List.takeWhile_append_of_pos digits, List.dropWhile_append_of_pos digits, head.1, head.2,
    List.append_nil]
  exact ⟨rfl, rfl⟩

theorem IsWhole.isGood {ws : List Char} (h : IsWhole ws) :
    (ws.isEmpty || hasIdleZero ws) = false := by
  obtain ⟨nonempty, -, lead⟩ := h
  rw [List.isEmpty_eq_false_iff.mpr nonempty, Bool.false_or]
  unfold hasIdleZero
  split
  · exact absurd (lead _ rfl) (by simp)
  · rfl

/-- A numeral without its sign is read, though its number may be out of range. -/
theorem IsMagnitude.isSome {body : List Char} (h : IsMagnitude body) (negative : Bool) :
    (unsigned? negative body).isSome := by
  cases h with
  | plain whole exponent =>
      obtain ⟨front, back⟩ := span_digits whole.digits exponent.head
      simp only [unsigned?, front, back, whole.isGood, Bool.false_eq_true, if_false]
      cases exponent with
      | absent => rfl
      | signed sign run =>
          simpa using (IsExponent.signed sign run).isSome
  | @pointed ws fs es whole fraction exponent =>
      have point : ('.' :: (fs ++ es)).takeWhile Char.isDigit = [] ∧
          ('.' :: (fs ++ es)).dropWhile Char.isDigit = '.' :: (fs ++ es) := ⟨rfl, rfl⟩
      obtain ⟨front, back⟩ := span_digits whole.digits point
      obtain ⟨after, last⟩ := span_digits fraction.digits exponent.head
      have some := List.isEmpty_eq_false_iff.mpr fraction.nonempty
      simp only [unsigned?, front, back, whole.isGood, after, last, some, Bool.false_eq_true,
        if_false, Option.isSome_map]
      exact exponent.isSome

/-- The numeral of a written number: a magnitude, or a minus sign and a magnitude. -/
def IsNumeral (cs : List Char) : Prop :=
  IsMagnitude cs ∨ ∃ body, cs = '-' :: body ∧ IsMagnitude body

theorem IsMagnitude.head {body : List Char} (h : IsMagnitude body) :
    ∃ c cs, body = c :: cs ∧ c.isDigit := by
  obtain ⟨ws, rest, rfl, whole⟩ : ∃ ws rest, body = ws ++ rest ∧ IsWhole ws := by
    cases h with
    | plain whole _ => exact ⟨_, _, rfl, whole⟩
    | pointed whole _ _ => exact ⟨_, _, rfl, whole⟩
  cases ws with
  | nil => exact absurd rfl whole.nonempty
  | cons c cs => exact ⟨c, cs ++ rest, rfl, whole.digits c (List.mem_cons_self ..)⟩

/-- A numeral that starts with a digit has no sign. -/
theorem IsMagnitude.numeral?_eq {body : List Char} (h : IsMagnitude body) :
    numeral? body = unsigned? false body := by
  obtain ⟨c, cs, rfl, digit⟩ := h.head
  have minus : c ≠ '-' := by
    rintro rfl
    exact absurd digit (by decide)
  simp [numeral?, minus]

theorem IsNumeral.isSome {cs : List Char} (h : IsNumeral cs) : (numeral? cs).isSome := by
  rcases h with h | ⟨body, rfl, h⟩
  · rw [h.numeral?_eq]
    exact h.isSome false
  · exact h.isSome true

theorem isNumeralChar_of_isDigit {c : Char} (digit : c.isDigit) : isNumeralChar c := by
  simp [isNumeralChar, digit]

theorem IsExponent.chars {es : List Char} (h : IsExponent es) : ∀ c ∈ es, isNumeralChar c := by
  cases h with
  | absent => simp
  | @signed sign ds mark run =>
      intro c hc
      rcases List.mem_cons.mp hc with rfl | hc
      · rfl
      · rcases List.mem_cons.mp hc with rfl | hc
        · rcases mark with rfl | rfl <;> rfl
        · exact isNumeralChar_of_isDigit (run.digits c hc)

theorem IsMagnitude.chars {body : List Char} (h : IsMagnitude body) :
    ∀ c ∈ body, isNumeralChar c := by
  intro c hc
  cases h with
  | plain whole exponent =>
      rcases List.mem_append.mp hc with hc | hc
      · exact isNumeralChar_of_isDigit (whole.digits c hc)
      · exact exponent.chars c hc
  | pointed whole fraction exponent =>
      rcases List.mem_append.mp hc with hc | hc
      · exact isNumeralChar_of_isDigit (whole.digits c hc)
      · rcases List.mem_cons.mp hc with rfl | hc
        · rfl
        · rcases List.mem_append.mp hc with hc | hc
          · exact isNumeralChar_of_isDigit (fraction.digits c hc)
          · exact exponent.chars c hc

theorem IsNumeral.chars {cs : List Char} (h : IsNumeral cs) : ∀ c ∈ cs, isNumeralChar c := by
  rcases h with h | ⟨body, rfl, h⟩
  · exact h.chars
  · intro c hc
    rcases List.mem_cons.mp hc with rfl | hc
    · rfl
    · exact h.chars c hc

/-! ## Written numbers -/

theorem isRun_zeros_append {ds : List Char} (h : IsRun ds) (n : Nat) :
    IsRun (List.replicate n '0' ++ ds) := by
  refine ⟨by simp [h.nonempty], fun c hc => ?_⟩
  rcases List.mem_append.mp hc with hc | hc
  · rw [List.eq_of_mem_replicate hc]
    decide
  · exact h.digits c hc

theorem isWhole_zero : IsWhole ['0'] := isWhole_toDigits 0

/-- A positional number of a document: a whole one gets a point and a zero. -/
theorem isMagnitude_positional (d : Decimal) :
    IsMagnitude (if 0 ≤ d.exponent then d.positional ++ ".0" else d.positional).toList := by
  have zero : IsRun ['0'] := isRun_toDigits 0
  unfold Decimal.positional
  split
  · split
    · have := IsMagnitude.pointed (isWhole_toDigits d.coefficient) zero .absent
      simpa [Text.natural] using this
    · next pos =>
      have := IsMagnitude.pointed (isWhole_toDigits_zeros pos d.exponent.toNat) zero .absent
      simpa [Text.natural, Decimal.zeros] using this
  · next down =>
    simp only [Text.natural, String.toList_ofList, String.length_ofList]
    split
    · next fits =>
      have before := (isWhole_toDigits d.coefficient).take
        (k := (Nat.toDigits 10 d.coefficient).length - (-d.exponent).toNat) (by omega)
      have after : IsRun ((Nat.toDigits 10 d.coefficient).drop
          ((Nat.toDigits 10 d.coefficient).length - (-d.exponent).toNat)) := by
        refine ⟨fun e => ?_, fun c hc => isDigit_toDigits _ c (List.mem_of_mem_drop hc)⟩
        have := List.drop_eq_nil_iff.mp e
        omega
      simpa using IsMagnitude.pointed before after .absent
    · have := IsMagnitude.pointed isWhole_zero
        (isRun_zeros_append (isRun_toDigits d.coefficient)
          ((-d.exponent).toNat - (Nat.toDigits 10 d.coefficient).length)) .absent
      simpa [Decimal.zeros] using this

/-- The first digit, the others after a point if there are any, and an exponent. -/
theorem isMagnitude_mantissa (n : Nat) {es : String} (exponent : IsExponent es.toList) :
    let digits := Nat.toDigits 10 n
    let head := String.ofList (digits.take 1)
    let tail := String.ofList (digits.drop 1)
    IsMagnitude ((if tail.isEmpty then head else head ++ "." ++ tail) ++ es).toList := by
  intro digits head tail
  have first : IsWhole (digits.take 1) := (isWhole_toDigits n).take Nat.one_pos
  split
  · simpa [head] using IsMagnitude.plain first exponent
  · next more =>
    have others : IsRun (digits.drop 1) := by
      refine ⟨fun e => more ?_, fun c hc => isDigit_toDigits n c (List.mem_of_mem_drop hc)⟩
      simp [tail, e]
    simpa [head, tail] using IsMagnitude.pointed first others exponent

theorem isMagnitude_scientific (d : Decimal) : IsMagnitude d.scientific.toList := by
  have digits (n : Nat) : (Text.natural n).toList = Nat.toDigits 10 n := by simp [Text.natural]
  have exponent (power : Int) : IsExponent ((if 0 ≤ power then "e+" else "e-") ++
      Text.natural power.natAbs).toList := by
    split
    · simpa [digits] using IsExponent.signed (.inl rfl) (isRun_toDigits power.natAbs)
    · simpa [digits] using IsExponent.signed (.inr rfl) (isRun_toDigits power.natAbs)
  unfold Decimal.scientific
  simp only [digits]
  rw [String.append_assoc]
  exact isMagnitude_mantissa d.coefficient (exponent _)

theorem isNumeral_signed (negative : Bool) {s : String} (h : IsMagnitude s.toList) :
    IsNumeral (Decimal.signed negative s).toList := by
  cases negative with
  | false => exact .inl h
  | true => exact .inr ⟨s.toList, by simp [Decimal.signed], h⟩

/-- **What a document shows for a double is a numeral.** -/
theorem isNumeral_document {x : Float} {t : String} (h : Decimal.document? x = some t) :
    IsNumeral t.toList := by
  unfold Decimal.document? at h
  split at h
  · next s m q _ =>
    cases h
    refine isNumeral_signed s ?_
    split
    · exact IsMagnitude.pointed isWhole_zero (isRun_toDigits 0) .absent
    · split
      · exact isMagnitude_positional _
      · exact isMagnitude_scientific _
  · cases h

/-- What a document shows for an integer is a numeral. -/
theorem isNumeral_whole (n : Int) : IsNumeral (Text.whole n).toList := by
  have digits (m : Nat) : IsMagnitude (Text.natural m).toList := by
    simpa [Text.natural] using IsMagnitude.plain (isWhole_toDigits m) .absent
  cases n with
  | ofNat m => exact .inl (digits m)
  | negSucc m => exact .inr ⟨_, by simp [Text.whole], digits (m + 1)⟩

end Blockwork.Json
