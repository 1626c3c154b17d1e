/-!
# Blank characters and trimming

Blank is the white-space property of the character standard: twenty-five characters, of which only
six are in the ASCII range.  Authored text is trimmed of them before it is read as a name, a number
or a list element.
-/

namespace Blockwork.Text

/-- The blank characters as ranges of code points. -/
def blankRanges : List (Nat × Nat) :=
  [(0x09, 0x0d), (0x20, 0x20), (0x85, 0x85), (0xa0, 0xa0), (0x1680, 0x1680), (0x2000, 0x200a),
   (0x2028, 0x2029), (0x202f, 0x202f), (0x205f, 0x205f), (0x3000, 0x3000)]

/-- Whether a code point lies in one of the ranges. -/
def inRanges (ranges : List (Nat × Nat)) (n : Nat) : Bool :=
  ranges.any fun r => r.1 ≤ n && n ≤ r.2

/-- Whether a character is blank. -/
def isBlank (c : Char) : Bool :=
  if c.toNat < 0x80 then c == ' ' || (9 ≤ c.toNat && c.toNat ≤ 13)
  else inRanges blankRanges c.toNat

example : (blankRanges.map fun r => r.2 - r.1 + 1).sum = 25 := rfl

/-- Drops the blank characters at the front. -/
def trimStartChars (cs : List Char) : List Char := cs.dropWhile isBlank

/-- Drops the blank characters at both ends. -/
def trimChars (cs : List Char) : List Char :=
  (trimStartChars (trimStartChars cs).reverse).reverse

/-- Drops the blank characters at both ends of a text. -/
def trim (s : String) : String := String.ofList (trimChars s.toList)

/-- Whether a text has no character that is not blank. -/
def isBlankText (s : String) : Bool := s.toList.all isBlank

end Blockwork.Text
