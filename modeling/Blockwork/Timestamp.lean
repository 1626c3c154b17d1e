import Blockwork.Text.Blank
import Blockwork.Text.Integer

/-!
# Points in time

A point in time is a count of seconds since the start of 1970 in universal time, with nanoseconds.
A leap second is the second before it with a thousand million nanoseconds added.

The written form is a date, a `T`, a time with as few groups of three fraction digits as lose
nothing, and a `Z`.  Reading is more generous: blanks may stand in front of every field and before
separators, a blank or a small `t` may divide date and time, months and the like may have one digit,
a year with an explicit sign may be of any length, and any offset is accepted and taken off.  An
offset must be present.
-/

namespace Blockwork

/-- A point in time. -/
structure Timestamp where
  /-- Whole seconds since the start of 1970. -/
  seconds : Int
  /-- Nanoseconds; at least a thousand million within a leap second. -/
  nanos : Nat
deriving DecidableEq, Inhabited

namespace Timestamp

/-! ## The calendar -/

/-- Days from the start of 1970 to a date, which may be one of a month that is too short for it. -/
def daysOf (year : Int) (month day : Nat) : Int :=
  let y := if month ≤ 2 then year - 1 else year
  let era := y.fdiv 400
  let yearOfEra := y - era * 400
  let m : Int := if 2 < month then month - 3 else month + 9
  let dayOfYear := (153 * m + 2) / 5 + day - 1
  let dayOfEra := yearOfEra * 365 + yearOfEra / 4 - yearOfEra / 100 + dayOfYear
  era * 146097 + dayOfEra - 719468

/-- The year, month and day of a number of days since the start of 1970. -/
def dateOf (days : Int) : Int × Nat × Nat :=
  let z := days + 719468
  let era := z.fdiv 146097
  let dayOfEra := z - era * 146097
  let yearOfEra :=
    (dayOfEra - dayOfEra / 1460 + dayOfEra / 36524 - dayOfEra / 146096) / 365
  let dayOfYear := dayOfEra - (365 * yearOfEra + yearOfEra / 4 - yearOfEra / 100)
  let m := (5 * dayOfYear + 2) / 153
  let day := dayOfYear - (153 * m + 2) / 5 + 1
  let month := if m < 10 then m + 3 else m - 9
  let year := yearOfEra + era * 400 + (if month ≤ 2 then 1 else 0)
  (year, month.toNat, day.toNat)

/-- Whether a year has a twenty-ninth of February. -/
def isLeapYear (year : Int) : Bool :=
  year % 4 == 0 && (year % 100 != 0 || year % 400 == 0)

/-- The number of days in a month. -/
def daysIn (year : Int) (month : Nat) : Nat :=
  if month = 2 then if isLeapYear year then 29 else 28
  else if month = 4 || month = 6 || month = 9 || month = 11 then 30
  else 31

/-- The years that have dates. -/
def yearInRange (year : Int) : Bool := -262143 ≤ year && year ≤ 262142

/-! ## Writing -/

/-- A number with zeros in front up to a width. -/
def padded (width n : Nat) : String :=
  let s := Text.natural n
  String.ofList (List.replicate (width - s.length) '0') ++ s

/-- The year, with a sign unless it has four digits. -/
def writtenYear (year : Int) : String :=
  if 0 ≤ year ∧ year ≤ 9999 then padded 4 year.toNat
  else (if year < 0 then "-" else "+") ++ padded 4 year.natAbs

/-- The fraction digits: none, or three, six or nine after a point. -/
def writtenFraction (nanos : Nat) : String :=
  if nanos = 0 then ""
  else if nanos % 1000000 = 0 then "." ++ padded 3 (nanos / 1000000)
  else if nanos % 1000 = 0 then "." ++ padded 6 (nanos / 1000)
  else "." ++ padded 9 nanos

/-- The written form in universal time. -/
def text (t : Timestamp) : String :=
  let days := t.seconds.fdiv 86400
  let rest := (t.seconds - days * 86400).toNat
  let (year, month, day) := dateOf days
  let leap := 1000000000 ≤ t.nanos
  let second := rest % 60 + (if leap then 1 else 0)
  let nanos := if leap then t.nanos - 1000000000 else t.nanos
  writtenYear year ++ "-" ++ padded 2 month ++ "-" ++ padded 2 day ++ "T" ++
    padded 2 (rest / 3600) ++ ":" ++ padded 2 (rest / 60 % 60) ++ ":" ++ padded 2 second ++
    writtenFraction nanos ++ "Z"

/-! ## Reading -/

/-- A number of one to `width` digits after blanks, between `low` and `high`, and what follows. -/
def field? (width low high : Nat) (cs : List Char) : Option (Nat × List Char) :=
  let start := Text.trimStartChars cs
  let digits := (start.take width).takeWhile Char.isDigit
  let n := Text.digitsValue digits
  if digits.isEmpty || n < low || high < n then none else some (n, start.drop digits.length)

/-- A year: up to four digits, or a sign and any number of digits. -/
def year? (cs : List Char) : Option (Int × List Char) :=
  let long (start : List Char) : Option (Nat × List Char) :=
    let digits := start.takeWhile Char.isDigit
    if digits.isEmpty then none
    else some (Text.digitsValue digits, start.dropWhile Char.isDigit)
  match Text.trimStartChars cs with
  | '-' :: start => (long start).map fun (n, rest) => (-(n : Int), rest)
  | '+' :: start => (long start).map fun (n, rest) => ((n : Int), rest)
  | start => (field? 4 0 9999 start).map fun (n, rest) => ((n : Int), rest)

/-- A separator after blanks, and what follows it. -/
def after? (separator : Char) (cs : List Char) : Option (List Char) :=
  match Text.trimStartChars cs with
  | c :: rest => if c = separator then some rest else none
  | [] => none

/-- The nanoseconds after a point; digits beyond the ninth are passed over. -/
def fraction? : List Char → Option (Nat × List Char)
  | '.' :: cs =>
    let digits := cs.takeWhile Char.isDigit
    if digits.isEmpty then none
    else
      let kept := digits.take 9
      some (Text.digitsValue kept * Nat.pow 10 (9 - kept.length), cs.dropWhile Char.isDigit)
  | cs => some (0, cs)

/-- Two digits, the first of at most `high`, and what follows. -/
def twoDigits? (high : Nat) : List Char → Option (Nat × List Char)
  | a :: b :: rest =>
    let n := a.toNat - '0'.toNat
    if a.isDigit && b.isDigit && n ≤ high then some (10 * n + (b.toNat - '0'.toNat), rest) else none
  | _ => none

/-- The offset from universal time in seconds, and what follows. -/
def offset? (cs : List Char) : Option (Int × List Char) :=
  let signed (negative : Bool) (start : List Char) : Option (Int × List Char) := do
    let (hours, rest) ← twoDigits? 9 start
    let (minutes, rest) ← twoDigits? 5 (rest.dropWhile fun c => c == ':' || Text.isBlank c)
    let n : Int := hours * 3600 + minutes * 60
    pure (if negative then -n else n, rest)
  if (cs.take 3).map Char.toUpper = ['U', 'T', 'C'] then some (0, cs.drop 3)
  else
    match cs with
    | c :: rest =>
      if c = 'Z' || c = 'z' then some (0, rest)
      else if c = '+' then signed false rest
      else if c = '-' || c = '−' then signed true rest
      else none
    | [] => none

/-- The point in time that a text names. -/
def parse? (s : String) : Option Timestamp := do
  let (year, cs) ← year? s.toList
  let cs ← after? '-' cs
  let (month, cs) ← field? 2 1 12 cs
  let cs ← after? '-' cs
  let (day, cs) ← field? 2 1 31 cs
  let cs ← match cs with
    | c :: rest => if c = 'T' || c = 't' || c = ' ' then some rest else none
    | [] => none
  let (hour, cs) ← field? 2 0 23 cs
  let cs ← after? ':' cs
  let (minute, cs) ← field? 2 0 59 cs
  let cs ← after? ':' cs
  let (second, cs) ← field? 2 0 60 cs
  let (nanos, cs) ← fraction? cs
  let (offset, cs) ← offset? (Text.trimStartChars cs)
  let local' := daysOf year month day * 86400 + hour * 3600 + minute * 60 + min second 59
  let seconds := local' - offset
  if cs.all Text.isBlank && yearInRange year && day ≤ daysIn year month &&
      offset.natAbs < 86400 && yearInRange (dateOf (seconds.fdiv 86400)).1 then
    some ⟨seconds, if second = 60 then nanos + 1000000000 else nanos⟩
  else none

end Timestamp

end Blockwork
