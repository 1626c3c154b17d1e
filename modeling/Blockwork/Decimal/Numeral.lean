import Blockwork.Decimal.Shortest
import Blockwork.Text.Integer

/-!
# Numbers in text

A number in authored text is an optional sign followed by `inf`, `infinity` or `nan` in any case, or
by decimal digits with an optional point and an optional exponent.  At least one digit must stand on
one side of the point, and one in the exponent if there is an exponent.  Blanks, separators and
other radices are not part of a number.  The value is the nearest number of the wanted width; one
beyond its range is an infinity.

An exponent is read until its value reaches 65536, and its further digits are passed over.  That
matters only to a number that has tens of thousands of digits to make up for its exponent.
-/

namespace Blockwork.Numeral

/-- A number as written, apart from its sign. -/
inductive Magnitude where
  /-- Not a number. -/
  | nan
  /-- Infinity. -/
  | infinite
  /-- A decimal. -/
  | decimal (d : Decimal)

/-- From this value on, further digits of an exponent are passed over. -/
def exponentBound : Nat := 65536

/-- The size of an exponent with one digit more. -/
def pushExponent (n : Nat) (c : Char) : Nat :=
  if n < exponentBound then 10 * n + Text.digitValue c else n

/-- The size of the exponent that a run of digits spells. -/
def exponentSize (ds : List Char) : Nat := ds.foldl pushExponent 0

/-- The size of an exponent of at least one digit. -/
def exponentDigits? (ds : List Char) : Option Nat :=
  if !ds.isEmpty && ds.all Char.isDigit then some (exponentSize ds) else none

/-- The exponent part: nothing, or an `e` with a signed run of digits. -/
def exponent? : List Char → Option Int
  | [] => some 0
  | e :: cs =>
    if e = 'e' || e = 'E' then
      match cs with
      | '-' :: ds => (exponentDigits? ds).map fun n => -(n : Int)
      | '+' :: ds => (exponentDigits? ds).map fun n => (n : Int)
      | ds => (exponentDigits? ds).map fun n => (n : Int)
    else none

/-- Digits with an optional point and exponent. -/
def decimal? (cs : List Char) : Option Decimal :=
  let whole := cs.takeWhile Char.isDigit
  let afterWhole := cs.dropWhile Char.isDigit
  let (fraction, rest) := match afterWhole with
    | '.' :: ds => (ds.takeWhile Char.isDigit, ds.dropWhile Char.isDigit)
    | ds => ([], ds)
  if whole.isEmpty && fraction.isEmpty then none
  else (exponent? rest).map fun e =>
    ⟨Text.digitsValue (whole ++ fraction), e - fraction.length⟩

/-- The number without its sign. -/
def magnitude? (cs : List Char) : Option Magnitude :=
  let word := String.ofList (cs.map Char.toLower)
  if word = "inf" || word = "infinity" then some .infinite
  else if word = "nan" then some .nan
  else (decimal? cs).map .decimal

/-- The sign and what follows it. -/
def read? (s : String) : Option (Bool × Magnitude) :=
  match s.toList with
  | '-' :: cs => (magnitude? cs).map (true, ·)
  | '+' :: cs => (magnitude? cs).map (false, ·)
  | cs => (magnitude? cs).map (false, ·)

/-- The double written in a text. -/
def float? (s : String) : Option Float :=
  (read? s).map fun
    | (_, .nan) => Binary.nan
    | (negative, .infinite) => Binary.ofMagnitude negative Binary.double.infinity
    | (negative, .decimal d) => Binary.ofMagnitude negative (d.encode Binary.double)

/-- The single written in a text. -/
def single? (s : String) : Option Float32 :=
  (read? s).map fun
    | (_, .nan) => Binary.narrow Binary.nan
    | (negative, .infinite) => Binary.ofMagnitudeSingle negative Binary.single.infinity
    | (negative, .decimal d) => Binary.ofMagnitudeSingle negative (d.encode Binary.single)

end Blockwork.Numeral
