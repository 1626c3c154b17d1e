/-!
# Whole numbers in text

A whole number is written in decimal digits with an optional sign in front.  A number without a
sign bit admits only the plus sign.  Anything else, an empty text and a number outside the wanted
range included, is no number.
-/

namespace Blockwork.Text

/-- The value of a decimal digit. -/
def digitValue (c : Char) : Nat := c.toNat - '0'.toNat

/-- The value of a run of decimal digits, most significant first, after digits of value `n`: each
digit multiplies what stands before it by ten. -/
def digitsAfter (n : Nat) (cs : List Char) : Nat := cs.foldl (fun n c => 10 * n + digitValue c) n

theorem digitsAfter_append (n : Nat) (as bs : List Char) :
    digitsAfter n (as ++ bs) = digitsAfter (digitsAfter n as) bs := List.foldl_append

/-- Digits in front count ten times for each digit that follows. -/
theorem digitsAfter_eq (n : Nat) (cs : List Char) :
    digitsAfter n cs = n * Nat.pow 10 cs.length + digitsAfter 0 cs := by
  induction cs generalizing n with
  | nil => simp [digitsAfter]
  | cons c cs ih =>
    have step (m : Nat) : digitsAfter m (c :: cs) = digitsAfter (10 * m + digitValue c) cs := rfl
    have power : Nat.pow 10 (c :: cs).length = Nat.pow 10 cs.length * 10 := rfl
    rw [step, step, ih (10 * n + _), ih (10 * 0 + _), power, Nat.mul_zero, Nat.zero_add,
      Nat.add_mul, ← Nat.add_assoc, Nat.mul_comm 10 n, Nat.mul_assoc, Nat.mul_comm 10]

/-- The value of a run of digits that is cut in half `depth` times.  A long run takes few
multiplications of large numbers this way. -/
def halvedValue : Nat → List Char → Nat
  | 0, cs => digitsAfter 0 cs
  | depth + 1, cs =>
    let low := cs.length / 2
    let high := cs.length - low
    halvedValue depth (cs.take high) * Nat.pow 10 low + halvedValue depth (cs.drop high)

/-- The value does not depend on how often a run is cut. -/
theorem halvedValue_eq (depth : Nat) (cs : List Char) :
    halvedValue depth cs = digitsAfter 0 cs := by
  induction depth generalizing cs with
  | zero => rfl
  | succ depth ih =>
    have rest : (cs.drop (cs.length - cs.length / 2)).length = cs.length / 2 := by
      rw [List.length_drop]; omega
    conv => rhs; rw [← List.take_append_drop (cs.length - cs.length / 2) cs]
    rw [halvedValue, ih, ih, digitsAfter_append, digitsAfter_eq (digitsAfter 0 _), rest]

/-- The value of a run of decimal digits, most significant first. -/
def digitsValue (cs : List Char) : Nat := halvedValue (Nat.log2 (cs.length / 16)) cs

/-- Each digit multiplies what stands before it by ten. -/
theorem digitsValue_eq (cs : List Char) : digitsValue cs = digitsAfter 0 cs := halvedValue_eq _ cs

/-- The value of a text made of at least one decimal digit. -/
def naturalChars? (cs : List Char) : Option Nat :=
  if !cs.isEmpty && cs.all Char.isDigit then some (digitsValue cs) else none

/-- An unsigned whole number of at most `max`. -/
def unsigned? (max : Nat) (s : String) : Option Nat :=
  let digits := match s.toList with
    | '+' :: cs => cs
    | cs => cs
  match naturalChars? digits with
  | some n => if n ≤ max then some n else none
  | none => none

/-- A signed whole number between `-bound` and `bound - 1`. -/
def signed? (bound : Nat) (s : String) : Option Int :=
  match s.toList with
  | '-' :: cs =>
    match naturalChars? cs with
    | some n => if n ≤ bound then some (-(n : Int)) else none
    | none => none
  | cs =>
    let digits := match cs with
      | '+' :: rest => rest
      | rest => rest
    match naturalChars? digits with
    | some n => if n < bound then some (n : Int) else none
    | none => none

/-- The decimal digits of a natural number. -/
def natural (n : Nat) : String := String.ofList (Nat.toDigits 10 n)

/-- The decimal digits of a whole number, after a minus sign if it is negative. -/
def whole (n : Int) : String :=
  match n with
  | .ofNat m => natural m
  | .negSucc m => "-" ++ natural (m + 1)

end Blockwork.Text
