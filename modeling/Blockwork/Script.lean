import Blockwork.Scalar
import Blockwork.Timestamp
import Blockwork.Validation

/-!
# Scripts

An actor's script is a list of lines, each an event followed by the blocks it starts, together with
the actor's global variables and a table of the functions defined anywhere in the lines.  The table
is derived: `rebuildFunctions` collects it anew, the first definition of a name in line order and
pre-order winning.
-/

namespace Blockwork

/-- A line: an event and the blocks it starts. -/
structure Line where
  /-- Its name, shown in error reports. -/
  name : String
  /-- A remark. -/
  description : String := ""
  /-- Whether it reacts. -/
  enabled : Bool := true
  /-- Its blocks, the event first. -/
  blocks : List Block := []
deriving BEq, Inhabited

namespace Line

/-- The event a line waits for, if it starts with one. -/
def eventKind (l : Line) : Option EventKind :=
  match l.blocks with
  | b :: _ =>
    match b.instruction with
    | .event kind => kind
    | _ => none
  | [] => none

/-- The blocks that run when the line starts. -/
def body (l : Line) : List Block :=
  match l.blocks with
  | b :: rest =>
    match b.instruction with
    | .event _ => rest
    | _ => b :: rest
  | [] => []

end Line

/-- An actor's script. -/
structure Script where
  /-- Whose it is. -/
  ownerId : ActorId
  /-- The owner's name when it was made. -/
  ownerName : String
  /-- Whether its lines react. -/
  enabled : Bool := true
  /-- The only world its lines react in. -/
  boundWorld : Option String := none
  /-- When it was last edited. -/
  lastModified : Timestamp
  /-- Its lines. -/
  lines : List Line := []
  /-- Its stored variables. -/
  globals : Table String Scalar := {}
  /-- Its functions by name. -/
  functions : Table String Block := {}
deriving BEq, Inhabited

namespace Script

/-- The blocks of all lines, in line order. -/
def blocks (s : Script) : List Block := s.lines.flatMap Line.blocks

/-- The functions defined in blocks; the first definition of a name counts. -/
def collectFunctions (blocks : List Block) : Table String Block :=
  (blocks.flatMap Block.functions).foldl (fun t f => t.insertNew f.1.name f.2) {}

/-- Collects the functions anew. -/
def rebuildFunctions (s : Script) : Script := { s with functions := collectFunctions s.blocks }

/-- Notes that the script was edited. -/
def touch (s : Script) (now : Timestamp) : Script := { s with lastModified := now }

/-- Adds a line at the end. -/
def pushLine (s : Script) (line : Line) (now : Timestamp) : Script :=
  ({ s with lines := s.lines ++ [line] }.rebuildFunctions).touch now

/-- Takes out the line at a place, if there is one; the function table stays as it is. -/
def removeLine (s : Script) (index : Nat) : Script := { s with lines := s.lines.eraseIdx index }

/-- The first block with an identity, in line order and pre-order. -/
def findBlock (s : Script) (id : BlockId) : Option Block := s.blocks.findSome? (Block.find id)

/-- The index of the first line that contains an identity. -/
def lineOf (s : Script) (id : BlockId) : Option Nat :=
  s.lines.findIdx? fun l => l.blocks.any fun b => (b.find id).isSome

/-- The function names of a tree that were defined before, and all names seen with it. -/
def repeatedFunctions (seen : List String) : List String → List Problem × List String
  | [] => ([], seen)
  | n :: rest =>
    let here := if seen.contains n then [Problem.duplicateFunction n] else []
    let (more, seen) := repeatedFunctions (n :: seen) rest
    (here ++ more, seen)

/-- The problems of a line's blocks, given the identities and function names seen before. -/
def blockProblems (ids : List BlockId) (names : List String) :
    List Block → List Problem × List BlockId × List String
  | [] => ([], ids, names)
  | b :: rest =>
    let (own, ids) := b.problemsFrom ids
    let (functions, names) := repeatedFunctions names (b.functions.map fun f => f.1.name)
    let (more, ids, names) := blockProblems ids names rest
    (own ++ functions ++ more, ids, names)

/-- The problems of lines, given the identities and function names seen before. -/
def lineProblems (ids : List BlockId) (names : List String) : List Line → List Problem
  | [] => []
  | l :: rest =>
    let order := Block.sequenceProblems true l.blocks
    let (own, ids, names) := blockProblems ids names l.blocks
    order ++ own ++ lineProblems ids names rest

/-- Every structural problem. -/
def problems (s : Script) : List Problem := lineProblems [] [] s.lines

/-- The first structural problem, if there is one. -/
def validate (s : Script) : Except Problem Unit :=
  match s.problems with
  | [] => .ok ()
  | p :: _ => .error p

end Script

end Blockwork
