/-!
# Looking for a text

A pattern is looked for by reading the text once.  While reading, one number is kept: how many
characters of the pattern the text read so far ends with, at most.  When the next character does not
go on with the pattern, the number falls back to the next shorter beginning of the pattern that the
text ends with.  These are known in advance, since they depend on the pattern alone: `borders` has,
for each non-empty beginning of the pattern, the length of the longest shorter beginning that it ends
with.  A text and a pattern of many equal characters therefore cost no more than any others.
-/

namespace Blockwork.Text

/-- A text to look for. -/
structure Pattern where
  /-- Its characters. -/
  chars : Array Char
  /-- For the beginning of each length from one on, how much of the pattern it ends with, short of
  all of itself. -/
  borders : Array Nat

namespace Pattern

/-- How much of a pattern has been read after one more character, given how much had been before and
the borders of what had been. -/
def extend (chars : Array Char) (borders : Array Nat) (c : Char) : Nat → Nat
  | 0 => if chars[0]? = some c then 1 else 0
  | k + 1 =>
    if chars[k + 1]? = some c then k + 2 else extend chars borders c (min k (borders.getD k 0))
termination_by k => k
decreasing_by omega

/-- The borders of a pattern: its own characters from the second on are read as a text is. -/
def bordersOf (chars : Array Char) : List Char → Array Nat
  | [] => #[]
  | _ :: rest =>
    rest.foldl (fun borders c => borders.push (extend chars borders c (borders.back?.getD 0))) #[0]

/-- The pattern of some characters. -/
def ofChars (cs : List Char) : Pattern := ⟨cs.toArray, bordersOf cs.toArray cs⟩

/-- The number of characters. -/
def length (p : Pattern) : Nat := p.chars.size

/-- How much of the pattern has been read after one more character. -/
def next (p : Pattern) (k : Nat) (c : Char) : Nat := extend p.chars p.borders c k

/-- Whether the pattern is completed within the characters, given how much of it has been read. -/
def occursFrom (p : Pattern) (k : Nat) : List Char → Bool
  | [] => k = p.length
  | c :: cs => k = p.length || occursFrom p (p.next k c) cs

/-- Whether the pattern occurs among the characters. -/
def occursIn (p : Pattern) (cs : List Char) : Bool := p.occursFrom 0 cs

/-- Cuts at each occurrence of the pattern, given how much of it has been read and the current piece,
last character first. -/
def splitFrom (p : Pattern) (k : Nat) (piece : List Char) : List Char → List (List Char)
  | [] => [piece.reverse]
  | c :: cs =>
    let k := p.next k c
    let piece := c :: piece
    if k = p.length then (piece.drop k).reverse :: splitFrom p 0 [] cs
    else splitFrom p k piece cs

/-- The pieces between the occurrences of a non-empty pattern, found from left to right without
overlap. -/
def split (p : Pattern) (cs : List Char) : List (List Char) := p.splitFrom 0 [] cs

example : (ofChars "abcabd".toList).borders = #[0, 0, 0, 1, 2, 0] := by decide +kernel

example : (ofChars "aabaaa".toList).borders = #[0, 1, 0, 1, 2, 2] := by decide +kernel

example : (ofChars "aab".toList).occursIn "aaab".toList := by decide +kernel

example : (ofChars "aa".toList).split "aaabaa".toList = [[], ['a', 'b'], []] := by decide +kernel

end Pattern

end Blockwork.Text
