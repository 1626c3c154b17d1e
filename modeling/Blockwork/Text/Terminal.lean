/-!
# Text for a terminal

A line of a log may quote what scripts and scenarios say, so it must not be able to steer the
terminal that shows it.  Escape, bell, backspace, form feed, delete and the controls from U+0080 to
U+009F are written as escapes; everything else is written as it is, line breaks and tabs included.
-/

namespace Blockwork.Text

/-- The ASCII controls that steer a terminal. -/
def terminalControls : List Char := ['\x1b', '\x07', '\x08', '\x0c', '\x7f']

/-- A character as it is written to a terminal. -/
def forTerminalChar (c : Char) : List Char :=
  let n := c.toNat
  if terminalControls.contains c then
    ['\\', 'x', Nat.digitChar (n / 16), Nat.digitChar (n % 16)]
  else if 0x80 ≤ n && n ≤ 0x9f then
    ['\\', 'u', '\x7b', Nat.digitChar (n / 16), Nat.digitChar (n % 16), '\x7d']
  else [c]

/-- A text as it is written to a terminal. -/
def forTerminal (s : String) : String := String.ofList (s.toList.flatMap forTerminalChar)

/-- The first line of a text, without the line break that ends it. -/
def firstLine (s : String) : String :=
  let cs := s.toList
  let line := cs.takeWhile (· != '\n')
  match line.reverse with
  | '\r' :: rest => String.ofList (if line.length < cs.length then rest.reverse else line)
  | _ => String.ofList line

end Blockwork.Text
