import Blockwork.Json.Basic

/-!
# JSON tokens

Text becomes a list of tokens in one pass, one character at a time.  A text literal whose escapes
leave half of a surrogate pair over has no characters to stand for, and a number can be too large
for a double; both are still tokens, because a part of a document that nobody asks for may contain
them.  A raw control character inside a text, an unknown escape or a malformed number is no token at
all.

Numbers with a fraction or an exponent are valued as documents value them: the leading digits that
fit into sixty-four bits are taken as an integer, rounded to a double and multiplied or divided by
the double nearest to the power of ten that remains.
-/

namespace Blockwork.Json

/-- A token of JSON text. -/
inductive Token where
  /-- An opening brace. -/
  | openBrace
  /-- A closing brace. -/
  | closeBrace
  /-- An opening bracket. -/
  | openBracket
  /-- A closing bracket. -/
  | closeBracket
  /-- A comma. -/
  | comma
  /-- A colon. -/
  | colon
  /-- The literal `null`. -/
  | null
  /-- A truth value. -/
  | bool (b : Bool)
  /-- A number, if it is in range. -/
  | number (n : Option Number)
  /-- A text, if its escapes are paired. -/
  | string (s : Option String)

/-! ## Numbers -/

/-- The greatest integer of sixty-four bits. -/
def maxWord : Nat := Nat.pow 2 64 - 1

/-- The digits taken so far: an integer of at most sixty-four bits and a power of ten. -/
structure Scaled where
  /-- The integer. -/
  significand : Nat
  /-- The power of ten. -/
  exponent : Int

namespace Scaled

/-- Whether the integer has room for another digit. -/
def fits (n digit : Nat) : Bool := n * 10 + digit ≤ maxWord

/-- Takes the digits before the point; from the first that does not fit they only count. -/
def takeWhole : List Char → Scaled → Scaled
  | [], s => s
  | c :: cs, s =>
    let digit := c.toNat - '0'.toNat
    if s.exponent = 0 && fits s.significand digit then
      takeWhole cs ⟨s.significand * 10 + digit, 0⟩
    else ⟨s.significand, s.exponent + (c :: cs).length⟩

/-- Takes the digits after the point, up to the first that does not fit. -/
def takeFraction : List Char → Scaled → Scaled
  | [], s => s
  | c :: cs, s =>
    let digit := c.toNat - '0'.toNat
    if fits s.significand digit then
      takeFraction cs ⟨s.significand * 10 + digit, s.exponent - 1⟩
    else s

/-- The double nearest to a power of ten. -/
def powerOfTen (n : Nat) : Float :=
  Binary.ofMagnitude false (Decimal.encode Binary.double ⟨1, n⟩)

/-- Divides by `1e308` while the power of ten is below the least one a double holds. -/
def divideDown : Nat → Float → Int → Float
  | 0, x, _ => x
  | n + 1, x, e =>
    if e < -308 && !(x == 0) then divideDown n (x / powerOfTen 308) (e + 308)
    else if e < -308 then x
    else x / powerOfTen e.natAbs

/-- The double of the digits taken, or `none` beyond the range of doubles. -/
def value? (s : Scaled) : Option Float :=
  let x := Binary.ofNat s.significand
  if 0 ≤ s.exponent then
    if s.exponent ≤ 308 then
      let y := x * powerOfTen s.exponent.toNat
      if Binary.isFinite y then some y else none
    else if x == 0 then some x else none
  else
    -- four divisions bring the greatest significand to zero
    some (divideDown 4 x s.exponent)

end Scaled

/-- The greatest exponent that is added up. -/
def maxExponent : Nat := Nat.pow 2 31 - 1

/-- The value of a numeral from its sign, its digits before and after the point, and its exponent. -/
def numberOf (negative : Bool) (whole : List Char) (fraction : Option (List Char))
    (exponent : Option (Bool × List Char)) : Option Number :=
  let sign (x : Float) : Number := .real (if negative then -x else x)
  let taken := Scaled.takeWhole whole ⟨0, 0⟩
  match fraction, exponent with
  | none, none =>
    if taken.exponent = 0 then
      let n := taken.significand
      if !negative then some (.whole n)
      else if n = 0 || (Nat.pow 2 63 : Nat) < n then some (sign (Binary.ofNat n))
      else some (.whole (-(n : Int)))
    else taken.value?.map sign
  | _, _ =>
    let s := match fraction with
      | some ds => Scaled.takeFraction ds taken
      | none => taken
    match exponent with
    | none => s.value?.map sign
    | some (down, ds) =>
      let e := Text.digitsValue ds
      if maxExponent < e then
        if s.significand ≠ 0 && !down then none else some (sign 0)
      else
        Scaled.value? ⟨s.significand, s.exponent + (if down then -(e : Int) else e)⟩ |>.map sign

/-- The exponent part of a numeral: whether it is negative, and its digits. -/
def exponentPart? : List Char → Option (Option (Bool × List Char))
  | [] => some none
  | e :: cs =>
    let (down, ds) := match cs with
      | '-' :: rest => (true, rest)
      | '+' :: rest => (false, rest)
      | rest => (false, rest)
    if (e = 'e' || e = 'E') && !ds.isEmpty && ds.all Char.isDigit then some (some (down, ds))
    else none

/-- Whether digits start with a zero that does not stand alone. -/
def hasIdleZero : List Char → Bool
  | '0' :: _ :: _ => true
  | _ => false

/-- Reads a numeral after its sign. -/
def unsigned? (negative : Bool) (body : List Char) : Option (Option Number) :=
  let whole := body.takeWhile Char.isDigit
  if whole.isEmpty || hasIdleZero whole then none
  else
    match body.dropWhile Char.isDigit with
    | '.' :: ds =>
      let fraction := ds.takeWhile Char.isDigit
      if fraction.isEmpty then none
      else
        (exponentPart? (ds.dropWhile Char.isDigit)).map fun e =>
          numberOf negative whole (some fraction) e
    | ds => (exponentPart? ds).map fun e => numberOf negative whole none e

/-- Reads a numeral.  The outer `none` is a malformed numeral, the inner one a number that is out
of range. -/
def numeral? : List Char → Option (Option Number)
  | '-' :: body => unsigned? true body
  | body => unsigned? false body

/-- Whether a character can be part of a numeral. -/
def isNumeralChar (c : Char) : Bool :=
  c.isDigit || c = '+' || c = '-' || c = '.' || c = 'e' || c = 'E'

/-! ## Texts -/

/-- Where the reading of a text literal stands. -/
inductive Escape where
  /-- Between characters. -/
  | plain
  /-- After a backslash. -/
  | slash
  /-- Inside a code point escape, with the digits still missing and the value so far. -/
  | code (missing : Nat) (value : Nat)

/-- A text literal being read. -/
structure Literal where
  /-- The characters so far, last first. -/
  done : List Char := []
  /-- The first half of a surrogate pair that waits for the second. -/
  half : Option Nat := none
  /-- Whether half of a surrogate pair stood alone. -/
  broken : Bool := false
  /-- Where the reading stands. -/
  escape : Escape := .plain

namespace Literal

/-- Adds a character. -/
def push (l : Literal) (c : Char) : Literal :=
  { l with done := c :: l.done, broken := l.broken || l.half.isSome, half := none, escape := .plain }

/-- Adds the code unit of a finished escape. -/
def pushUnit (l : Literal) (n : Nat) : Literal :=
  let high := 0xd800 ≤ n && n ≤ 0xdbff
  let low := 0xdc00 ≤ n && n ≤ 0xdfff
  match l.half with
  | some h =>
    if low then
      { l with
        done := Char.ofNat (0x10000 + (h - 0xd800) * 0x400 + (n - 0xdc00)) :: l.done
        half := none
        escape := .plain }
    else { l with broken := true, half := none, escape := .plain }
  | none =>
    if high then { l with half := some n, escape := .plain }
    else if low then { l with broken := true, escape := .plain }
    else l.push (Char.ofNat n)

/-- The finished literal. -/
def close (l : Literal) : Token :=
  .string (if l.broken || l.half.isSome then none else some (String.ofList l.done.reverse))

end Literal

/-- The value of a hexadecimal digit. -/
def hexValue? (c : Char) : Option Nat :=
  if c.isDigit then some (c.toNat - '0'.toNat)
  else if 'a' ≤ c && c ≤ 'f' then some (c.toNat - 'a'.toNat + 10)
  else if 'A' ≤ c && c ≤ 'F' then some (c.toNat - 'A'.toNat + 10)
  else none

/-- The character of a one-letter escape. -/
def shortEscape? (c : Char) : Option Char :=
  if c = '"' || c = '\\' || c = '/' then some c
  else if c = 'b' then some (Char.ofNat 8)
  else if c = 'f' then some (Char.ofNat 12)
  else if c = 'n' then some '\n'
  else if c = 'r' then some '\r'
  else if c = 't' then some '\t'
  else none

/-! ## Scanning -/

/-- What the scanner is in the middle of. -/
inductive Scan where
  /-- Nothing. -/
  | idle
  /-- A word, with the characters still to come and the token it makes. -/
  | word (missing : List Char) (token : Token)
  /-- A numeral, last character first. -/
  | numeral (lexeme : List Char)
  /-- A text literal. -/
  | literal (l : Literal)

/-- The mark a character makes by itself. -/
def mark? (c : Char) : Option Token :=
  if c = '\x7b' then some .openBrace
  else if c = '\x7d' then some .closeBrace
  else if c = '[' then some .openBracket
  else if c = ']' then some .closeBracket
  else if c = ',' then some .comma
  else if c = ':' then some .colon
  else none

/-- Whether a character may stand between tokens. -/
def isSpace (c : Char) : Bool := c = ' ' || c = '\n' || c = '\t' || c = '\r'

/-- Starts on a character outside any token, adding to the tokens found so far, last first. -/
def begin (c : Char) (found : List Token) : Option (Scan × List Token) :=
  match mark? c with
  | some t => some (.idle, t :: found)
  | none =>
    if isSpace c then some (.idle, found)
    else if c = '"' then some (.literal {}, found)
    else if c = '-' || c.isDigit then some (.numeral [c], found)
    else if c = 't' then some (.word ['r', 'u', 'e'] (.bool true), found)
    else if c = 'f' then some (.word ['a', 'l', 's', 'e'] (.bool false), found)
    else if c = 'n' then some (.word ['u', 'l', 'l'] .null, found)
    else none

/-- Ends the token at the end of a numeral or a word. -/
def finish (found : List Token) : Scan → Option (List Token)
  | .idle => some found
  | .word missing t => if missing.isEmpty then some (t :: found) else none
  | .numeral lexeme => (numeral? lexeme.reverse).map fun n => .number n :: found
  | .literal _ => none

/-- One more character of a text literal: the literal continued, or its token. -/
def literalStep (l : Literal) (c : Char) : Option (Literal ⊕ Token) :=
  match l.escape with
  | .plain =>
    if c = '"' then some (.inr l.close)
    else if c = '\\' then some (.inl { l with escape := .slash })
    else if c.toNat < 32 then none
    else some (.inl (l.push c))
  | .slash =>
    if c = 'u' then some (.inl { l with escape := .code 4 0 })
    else (shortEscape? c).map fun d => .inl (l.push d)
  | .code missing value =>
    match hexValue? c with
    | none => none
    | some d =>
      let n := value * 16 + d
      if missing ≤ 1 then some (.inl (l.pushUnit n))
      else some (.inl { l with escape := .code (missing - 1) n })

/-- One more character. -/
def scanStep (state : Scan) (found : List Token) (c : Char) : Option (Scan × List Token) :=
  match state with
  | .idle => begin c found
  | .word [] t => begin c (t :: found)
  | .word (m :: missing) t => if c = m then some (.word missing t, found) else none
  | .numeral lexeme =>
    if isNumeralChar c then some (.numeral (c :: lexeme), found)
    else (numeral? lexeme.reverse).bind fun n => begin c (.number n :: found)
  | .literal l =>
    (literalStep l c).map fun
      | .inl more => (.literal more, found)
      | .inr t => (.idle, t :: found)

/-- Scans the remaining characters. -/
def scanFrom : Scan → List Token → List Char → Option (List Token)
  | state, found, [] => (finish found state).map List.reverse
  | state, found, c :: cs =>
    match scanStep state found c with
    | some (next, more) => scanFrom next more cs
    | none => none

/-- The tokens of a text. -/
def tokens? (cs : List Char) : Option (List Token) := scanFrom .idle [] cs

end Blockwork.Json
