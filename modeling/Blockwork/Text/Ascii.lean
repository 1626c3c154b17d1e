/-!
# The ASCII letters

Names of enumerations, actors and worlds are compared without regard to the case of the letters
`a` to `z`; every other character stands for itself.  Materials and potion effects are kept in
capitals in the same sense.
-/

namespace Blockwork.Text

/-- The text with its ASCII letters in lower case. -/
def lowerAscii (s : String) : String := String.ofList (s.toList.map Char.toLower)

/-- The text with its ASCII letters in upper case. -/
def upperAscii (s : String) : String := String.ofList (s.toList.map Char.toUpper)

/-- Whether two texts differ at most in the case of ASCII letters. -/
def sameLetters (s t : String) : Bool := s.toList.map Char.toLower == t.toList.map Char.toLower

/-- Whether a character is an ASCII letter or digit. -/
def isAsciiAlphanumeric (c : Char) : Bool := c.isAlphanum

theorem sameLetters_refl (s : String) : sameLetters s s = true := by simp [sameLetters]

end Blockwork.Text
