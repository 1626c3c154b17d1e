import Blockwork.Text.Ascii

/-!
# Templates

A template is text with placeholders `%name%` and `{name}`, where a name is a run of letters,
digits and `_ - . :`.  `Template.pieces` cuts a template into placeholders and the literal text
between them, from left to right and without looking back, and `Template.fill` puts it together
again with the placeholders replaced.  Cutting happens once and before any replacement, so text that
is filled in is never itself looked at for placeholders.
-/

namespace Blockwork.Template

/-- The two ways of marking a name. -/
inductive Marker where
  /-- Percent signs. -/
  | percent
  /-- Braces. -/
  | brace
deriving DecidableEq, Inhabited

/-- The character before a name. -/
def Marker.opening : Marker → Char
  | .percent => '%'
  | .brace => '\x7b'

/-- The character after a name. -/
def Marker.closing : Marker → Char
  | .percent => '%'
  | .brace => '\x7d'

/-- The marker that a character opens. -/
def marker? (c : Char) : Option Marker :=
  if c = '%' then some .percent else if c = '\x7b' then some .brace else none

/-- Whether a character can be part of a name. -/
def isNameChar (c : Char) : Bool :=
  Text.isAsciiAlphanumeric c || c = '_' || c = '-' || c = '.' || c = ':'

/-- Whether characters form a name. -/
def isName (cs : List Char) : Bool := !cs.isEmpty && cs.all isNameChar

/-- A piece of a template. -/
inductive Piece where
  /-- Text that stands for itself. -/
  | literal (cs : List Char)
  /-- A marked name. -/
  | placeholder (marker : Marker) (name : List Char)
deriving DecidableEq, Inhabited

/-- The characters of a piece. -/
def Piece.chars : Piece → List Char
  | .literal cs => cs
  | .placeholder m name => m.opening :: name ++ [m.closing]

/-- Cuts the rest of a template, given the marker that is open and the name after it so far, last
character first. -/
def piecesFrom : Option (Marker × List Char) → List Char → List Piece
  | none, [] => []
  | some (m, name), [] => [.literal (m.opening :: name.reverse)]
  | none, c :: cs =>
    match marker? c with
    | some m => piecesFrom (some (m, [])) cs
    | none => .literal [c] :: piecesFrom none cs
  | some (m, name), c :: cs =>
    if isNameChar c then piecesFrom (some (m, c :: name)) cs
    else if c = m.closing && !name.isEmpty then .placeholder m name.reverse :: piecesFrom none cs
    else
      .literal (m.opening :: name.reverse) ::
        (match marker? c with
          | some n => piecesFrom (some (n, [])) cs
          | none => .literal [c] :: piecesFrom none cs)

/-- The pieces of a template. -/
def pieces (cs : List Char) : List Piece := piecesFrom none cs

/-- What a piece becomes: a placeholder whose name is known its replacement, anything else itself. -/
def Piece.fill (lookup : Marker → String → Option String) : Piece → List Char
  | .literal cs => cs
  | .placeholder m name =>
    match lookup m (String.ofList name) with
    | some s => s.toList
    | none => (Piece.placeholder m name).chars

/-- The template with the placeholders that are known replaced. -/
def fill (lookup : Marker → String → Option String) (template : String) : String :=
  String.ofList ((pieces template.toList).flatMap (Piece.fill lookup))

end Blockwork.Template
