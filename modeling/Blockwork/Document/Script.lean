import Blockwork.Document.Block
import Blockwork.Script

/-!
# Script documents

The form in which scripts are stored.  A script becomes a document and a document JSON text, indented
by two blanks; reading goes back the same way.  Lines are numbered in a document and put into the
order of their numbers when it is read, lines of one number in the order of the document.
-/

namespace Blockwork

/-- A line in a document. -/
structure LineDocument where
  /-- Its name. -/
  name : String
  /-- A remark. -/
  description : String := ""
  /-- Whether it reacts. -/
  enabled : Bool := true
  /-- Its place among the lines. -/
  lineNumber : Nat := 0
  /-- Its blocks. -/
  blocks : List BlockDocument := []
deriving Inhabited

/-- A script in a document. -/
structure ScriptDocument where
  /-- Whose it is. -/
  ownerId : ActorId
  /-- The owner's name. -/
  ownerName : String := ""
  /-- Whether its lines react. -/
  enabled : Bool := true
  /-- When it was last edited. -/
  lastModified : Timestamp
  /-- The only world its lines react in. -/
  boundWorld : Option String := none
  /-- Its lines. -/
  lines : List LineDocument := []
  /-- Its stored variables. -/
  globalVariables : Table String Scalar := {}
deriving Inhabited

namespace LineDocument

/-- The document of a line at a place. -/
def ofLine (number : Nat) (l : Line) : LineDocument :=
  { name := l.name
    description := l.description
    enabled := l.enabled
    lineNumber := number
    blocks := BlockDocument.ofBlocks l.blocks }

/-- The documents of lines numbered from a given place. -/
def ofLines : Nat → List Line → List LineDocument
  | _, [] => []
  | n, l :: rest => ofLine n l :: ofLines (n + 1) rest

/-- The line with blocks already decoded. -/
def withBlocks (d : LineDocument) (blocks : List Block) : Line :=
  { name := d.name, description := d.description, enabled := d.enabled, blocks := blocks }

/-- Decodes lines, given the identities met before. -/
def decodeAll (seen : List BlockId) : List LineDocument → Except DocumentError (List Line)
  | [] => .ok []
  | d :: rest =>
    match BlockDocument.decodeAll seen d.blocks with
    | .error e => .error e
    | .ok (blocks, seen) =>
      match decodeAll seen rest with
      | .error e => .error e
      | .ok lines => .ok (d.withBlocks blocks :: lines)

/-- Lines in the order of their numbers, those of one number as they were. -/
def inOrder (lines : List LineDocument) : List LineDocument :=
  lines.mergeSort fun a b => a.lineNumber ≤ b.lineNumber

/-- The document as JSON. -/
def toJson (d : LineDocument) : Json :=
  .object [("name", .string d.name), ("description", .string d.description),
    ("enabled", .bool d.enabled), ("lineNumber", .natural d.lineNumber),
    ("blocks", .array (BlockDocument.toJsonAll d.blocks))]

/-- The field names of a line document, in order. -/
def fieldNames : List String := ["name", "description", "enabled", "lineNumber", "blocks"]

open BlockDocument (lift field? fieldOr Reader) in
/-- Reads a line document. -/
def read (depth : Nat) (n : Json.Node) : Reader LineDocument := do
  let (depth, fields) ← lift (n.fields? fieldNames depth)
  let name ← lift (field? fields "name" Json.Node.text?)
  let description ← lift (fieldOr fields "description" "" Json.Node.text?)
  let enabled ← lift (fieldOr fields "enabled" true Json.Node.bool?)
  let lineNumber ← lift (fieldOr fields "lineNumber" 0 (Json.Node.natural? Json.maxWord))
  let blocks ← match fields.get? "blocks", depth with
    | none, _ => pure []
    | some (.array items), inner + 1 => items.mapM (BlockDocument.read inner)
    | some _, _ => failure
  pure { name, description, enabled, lineNumber, blocks }

end LineDocument

namespace ScriptDocument

/-- The document of a script. -/
def ofScript (s : Script) : ScriptDocument :=
  { ownerId := s.ownerId
    ownerName := s.ownerName
    enabled := s.enabled
    lastModified := s.lastModified
    boundWorld := s.boundWorld
    lines := LineDocument.ofLines 0 s.lines
    globalVariables := s.globals }

/-- The script of a document. -/
def toScript (d : ScriptDocument) : Except DocumentError Script :=
  match LineDocument.decodeAll [] (LineDocument.inOrder d.lines) with
  | .error e => .error e
  | .ok lines =>
    .ok ({ ownerId := d.ownerId
           ownerName := d.ownerName
           enabled := d.enabled
           boundWorld := d.boundWorld
           lastModified := d.lastModified
           lines := lines
           globals := d.globalVariables : Script }.rebuildFunctions)

/-- The document as JSON; the world is left out when there is none. -/
def toJson (d : ScriptDocument) : Json :=
  .object ([("ownerId", .string d.ownerId.text), ("ownerName", .string d.ownerName),
    ("enabled", .bool d.enabled), ("lastModified", .string d.lastModified.text)] ++
    (d.boundWorld.map fun w => ("boundWorld", Json.string w)).toList ++
    [("lines", .array (d.lines.map LineDocument.toJson)),
     ("globalVariables", .object (d.globalVariables.map Scalar.toJson).toList)])

/-- The field names of a script document, in order. -/
def fieldNames : List String :=
  ["ownerId", "ownerName", "enabled", "lastModified", "boundWorld", "lines", "globalVariables"]

/-- Reads a point in time. -/
def timestamp? (n : Json.Node) : Option Timestamp := n.text?.bind Timestamp.parse?

open BlockDocument (lift field? fieldOr Reader) in
/-- Reads all fields of a script document but its variables. -/
def readHead (depth : Nat) (fields : Table String Json.Node) : Reader ScriptDocument := do
  let ownerId ← lift (field? fields "ownerId" BlockDocument.uuid?)
  let ownerName ← lift (fieldOr fields "ownerName" "" Json.Node.text?)
  let enabled ← lift (fieldOr fields "enabled" true Json.Node.bool?)
  let lastModified ← lift (field? fields "lastModified" timestamp?)
  let boundWorld ← lift (fieldOr fields "boundWorld" none (Json.Node.nullable? Json.Node.text?))
  let lines ← match fields.get? "lines", depth with
    | none, _ => pure []
    | some (.array items), inner + 1 => items.mapM (LineDocument.read inner)
    | some _, _ => failure
  pure { ownerId, ownerName, enabled, lastModified, boundWorld, lines }

open BlockDocument (lift fieldOr Reader) in
/-- Reads a script document. -/
def read (depth : Nat) (n : Json.Node) : Reader ScriptDocument := do
  let (depth, fields) ← lift (n.fields? fieldNames depth)
  let head ← readHead depth fields
  let globalVariables ← lift (fieldOr fields "globalVariables" {} (Scalar.readTable? depth))
  pure { head with globalVariables }

end ScriptDocument

namespace Script

/-- The script as indented JSON text. -/
def toText (s : Script) : String := (ScriptDocument.ofScript s).toJson.pretty 0

/-- Reads a script from parsed JSON. -/
def ofNode (n : Json.Node) (supply : Uuid.Supply) : Except DocumentError (Script × Uuid.Supply) :=
  match (ScriptDocument.read Json.Node.maxDepth n).run supply with
  | none => .error .json
  | some (d, supply) => d.toScript.map (·, supply)

/-- Reads a script from JSON text. -/
def ofText (text : String) (supply : Uuid.Supply) : Except DocumentError (Script × Uuid.Supply) :=
  match Json.Node.ofText? text with
  | none => .error .json
  | some n => ofNode n supply

end Script

end Blockwork
