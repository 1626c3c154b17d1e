import Blockwork.Text.Blank

/-!
# Argument lists

The arguments of a call are written in one line, divided by commas.  Commas inside quotes or braces
do not divide.  An argument that begins with a quote is quoted; blanks outside its quotes are
dropped.
-/

namespace Blockwork

/-- An argument as written. -/
inductive Argument where
  /-- A text in quotes. -/
  | quoted (s : String)
  /-- Anything else, trimmed. -/
  | bare (s : String)
deriving DecidableEq, Inhabited

namespace Argument

/-- An argument being read. -/
structure Draft where
  /-- Its characters so far, last first. -/
  chars : List Char := []
  /-- Whether it began with a quote. -/
  isQuoted : Bool := false
  /-- The quote that is open. -/
  quote : Option Char := none
  /-- Braces that are open. -/
  depth : Nat := 0

namespace Draft

/-- The finished argument. -/
def finish (d : Draft) : Argument :=
  if d.isQuoted then .quoted (String.ofList d.chars.reverse)
  else .bare (Text.trim (String.ofList d.chars.reverse))

/-- Adds a character. -/
def push (d : Draft) (c : Char) : Draft := { d with chars := c :: d.chars }

/-- One more character: the argument continued, or `none` for a comma that ends it. -/
def step (d : Draft) (c : Char) : Option Draft :=
  match d.quote with
  | some q => some (if c = q then { d with quote := none } else d.push c)
  | none =>
    if (c = '"' || c = '\'') && d.chars.all Text.isBlank then
      some { d with chars := [], quote := some c, isQuoted := true }
    else if c = '\x7b' then some { d.push c with depth := d.depth + 1 }
    else if c = '\x7d' then some { d.push c with depth := d.depth - 1 }
    else if c = ',' && d.depth = 0 then none
    else some (if d.isQuoted && Text.isBlank c then d else d.push c)

end Draft

/-- The arguments in the rest of a line, given the one being read. -/
def splitFrom (d : Draft) : List Char → List Argument
  | [] => [d.finish]
  | c :: cs =>
    match d.step c with
    | some more => splitFrom more cs
    | none => d.finish :: splitFrom {} cs

/-- The arguments of a list; a blank list has none. -/
def split (list : String) : List Argument :=
  if Text.isBlankText list then [] else splitFrom {} list.toList

end Argument

end Blockwork
