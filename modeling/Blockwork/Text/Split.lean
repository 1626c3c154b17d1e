import Blockwork.Text.Blank
import Blockwork.Text.Search

/-!
# Cutting text apart

Separators are found from left to right without overlap.  Replacing is cutting at one text and
joining with another.
-/

namespace Blockwork.Text

/-- What follows a given beginning, if the characters start with it. -/
def afterStart? : List Char → List Char → Option (List Char)
  | [], cs => some cs
  | _ :: _, [] => none
  | p :: ps, c :: cs => if p = c then afterStart? ps cs else none

/-- The pieces between the occurrences of a character. -/
def splitChars (separator : Char) : List Char → List (List Char)
  | [] => [[]]
  | c :: cs =>
    if c = separator then [] :: splitChars separator cs
    else
      match splitChars separator cs with
      | [] => [[c]]
      | piece :: rest => (c :: piece) :: rest

/-- The pieces of a text between the occurrences of a character. -/
def splitAt (s : String) (separator : Char) : List String :=
  (splitChars separator s.toList).map String.ofList

/-- The pieces of a text between the occurrences of a non-empty separator. -/
def splitOn (s separator : String) : List String :=
  ((Pattern.ofChars separator.toList).split s.toList).map String.ofList

/-- The pieces of a text between commas, each trimmed. -/
def commaParts (s : String) : List String := (splitAt s ',').map trim

/-- At most `n` pieces: the last one keeps the separators that remain. -/
def splitAtMost (separator : Char) : Nat → List Char → List (List Char)
  | 0, _ => []
  | 1, cs => [cs]
  | n + 2, cs =>
    match cs.dropWhile (· != separator) with
    | [] => [cs]
    | _ :: rest => cs.takeWhile (· != separator) :: splitAtMost separator (n + 1) rest

/-- The texts one after another with a separator between them. -/
def join (separator : String) (parts : List String) : String := separator.intercalate parts

/-- The text with every occurrence of a non-empty text replaced by another. -/
def replace (s pattern replacement : String) : String := join replacement (splitOn s pattern)

/-- Whether the characters start with a given beginning. -/
def startsWithChars (cs start : List Char) : Bool := (afterStart? start cs).isSome

/-- Whether a text occurs in another one. -/
def contains (s pattern : String) : Bool := (Pattern.ofChars pattern.toList).occursIn s.toList

/-- Whether a text begins with another one. -/
def startsWith (s start : String) : Bool := startsWithChars s.toList start.toList

/-- Whether a text ends with another one. -/
def endsWith (s ending : String) : Bool :=
  startsWithChars s.toList.reverse ending.toList.reverse

/-- The first `n` characters of a text; a text with no more than that is kept as it is. -/
def truncate (n : Nat) (s : String) : String :=
  if s.length ≤ n then s else String.ofList (s.toList.take n)

/-- The inside of a text that begins and ends with the given characters. -/
def unwrapChars (opening closing : Char) : List Char → Option (List Char)
  | [] => none
  | c :: cs =>
    if c = opening then
      match cs.reverse with
      | d :: inner => if d = closing then some inner.reverse else none
      | [] => none
    else none

end Blockwork.Text
