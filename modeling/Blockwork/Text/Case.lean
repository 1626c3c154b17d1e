import Blockwork.Text.Blank
import Blockwork.Text.CaseData

/-!
# Upper and lower case

The full case forms of a text.  Most letters become one other character; a few become several
(`ß` gives `SS`).  A capital sigma becomes the final form `ς` where a word ends: when the nearest
cased character before it exists and none follows, both sought across the characters that case
rules look through.
-/

namespace Blockwork.Text

/-- The other case of a code point, if it lies on one of the runs. -/
def shiftedBy (runs : List CaseRun) (n : Nat) : Option Nat :=
  match runs.find? fun r => r.first ≤ n && n ≤ r.last && (n - r.first) % r.stride == 0 with
  | some r => some ((n : Int) + r.shift).toNat
  | none => none

/-- The case form of a character beyond ASCII. -/
def otherCase (special : List (Nat × List Nat)) (runs : List CaseRun) (c : Char) : List Char :=
  match special.find? fun e => e.1 == c.toNat with
  | some (_, form) => form.map Char.ofNat
  | none =>
    match shiftedBy runs c.toNat with
    | some n => [Char.ofNat n]
    | none => [c]

/-- The capital form of a character. -/
def upperChar (c : Char) : List Char :=
  if c.toNat < 0x80 then [c.toUpper] else otherCase upperSpecial upperRuns c

/-- The small form of a character, wherever it stands. -/
def lowerChar (c : Char) : List Char :=
  if c.toNat < 0x80 then [c.toLower] else otherCase lowerSpecial lowerRuns c

/-- The text in capitals. -/
def upper (s : String) : String := String.ofList (s.toList.flatMap upperChar)

/-- Whether the first character that case rules do not look through has a case. -/
def meetsCased (cs : List Char) : Bool :=
  match cs.dropWhile fun c => inRanges caseIgnorable c.toNat with
  | [] => false
  | c :: _ => inRanges cased c.toNat

/-- The small forms of the characters, given those before them, nearest first. -/
def lowerFrom (before : List Char) : List Char → List Char
  | [] => []
  | c :: cs =>
    let form :=
      if c = 'Σ' then if meetsCased before && !meetsCased cs then ['ς'] else ['σ'] else lowerChar c
    form ++ lowerFrom (c :: before) cs

/-- The text in small letters. -/
def lower (s : String) : String := String.ofList (lowerFrom [] s.toList)

end Blockwork.Text
