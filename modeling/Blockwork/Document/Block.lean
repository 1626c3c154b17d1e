import Blockwork.Document.Value

/-!
# Blocks in documents

A block document names the type of the block, carries its parameters as plain JSON and holds the
documents of its children.  Decoding a tree is all or nothing.  Blocks are judged in pre-order, and
of one block first the type, then the identity, then the parameters by ascending name.
-/

namespace Blockwork

/-- A block in a document. -/
structure BlockDocument where
  /-- Its identity. -/
  id : BlockId
  /-- The name of its type. -/
  type : String
  /-- Its parameters. -/
  parameters : Table String Json := {}
  /-- The blocks inside it. -/
  children : List BlockDocument := []
deriving Inhabited

namespace BlockDocument

mutual

/-- The document of a block. -/
def ofBlock : Block → BlockDocument
  | ⟨i, k, cs⟩ => ⟨i, Named.name k.blockType, k.toParams.map Param.toJson, ofBlocks cs⟩

/-- The documents of several blocks. -/
def ofBlocks : List Block → List BlockDocument
  | [] => []
  | b :: bs => ofBlock b :: ofBlocks bs

end

mutual

/-- Decodes a document, given the identities met before; they are returned with those of the
document added. -/
def decode (seen : List BlockId) : BlockDocument → Except DocumentError (Block × List BlockId)
  | ⟨id, type, parameters, children⟩ =>
    match BlockType.ofName? type with
    | none => .error (.unknownBlockType type)
    | some t =>
      if seen.contains id then .error (.duplicateId id)
      else
        match Params.ofJson id t.schema parameters.toList with
        | .error e => .error e
        | .ok params =>
          match decodeAll (id :: seen) children with
          | .error e => .error e
          | .ok (blocks, seen) => .ok (⟨id, Instruction.ofParams t params, blocks⟩, seen)

/-- Decodes several documents, one after another. -/
def decodeAll (seen : List BlockId) :
    List BlockDocument → Except DocumentError (List Block × List BlockId)
  | [] => .ok ([], seen)
  | d :: ds =>
    match decode seen d with
    | .error e => .error e
    | .ok (b, seen) =>
      match decodeAll seen ds with
      | .error e => .error e
      | .ok (bs, seen) => .ok (b :: bs, seen)

end

/-- The block of a document. -/
def toBlock (d : BlockDocument) : Except DocumentError Block := (decode [] d).map Prod.fst

mutual

/-- The document as JSON; children are left out when there are none. -/
def toJson : BlockDocument → Json
  | ⟨id, type, parameters, children⟩ =>
    let inner := toJsonAll children
    .object ([("id", .string id.text), ("type", .string type),
      ("parameters", .object parameters.toList)] ++
      (if inner.isEmpty then [] else [("children", .array inner)]))

/-- Several documents as JSON. -/
def toJsonAll : List BlockDocument → List Json
  | [] => []
  | d :: ds => toJson d :: toJsonAll ds

end

/-- Readers that hand out identities on the way. -/
abbrev Reader := StateT Uuid.Supply Option

/-- A reader that hands out none. -/
def lift {α : Type} (x : Option α) : Reader α := fun s => x.map (·, s)

/-- A new identity. -/
def fresh : Reader Uuid := fun s => some s.take

/-- Reads a field that may be left out. -/
def fieldOr {α : Type} (fields : Table String Json.Node) (name : String) (default : α)
    (read : Json.Node → Option α) : Option α :=
  match fields.get? name with
  | some n => read n
  | none => some default

/-- Reads a field that must be present. -/
def field? {α : Type} (fields : Table String Json.Node) (name : String)
    (read : Json.Node → Option α) : Option α :=
  (fields.get? name).bind read

/-- Reads an identity. -/
def uuid? (n : Json.Node) : Option Uuid := n.text?.bind Uuid.parse?

/-- The field names of a block document, in order. -/
def fieldNames : List String := ["id", "type", "parameters", "children"]

/-- The identity in a block document; a block without one gets a new one. -/
def readId (fields : Table String Json.Node) : Reader Uuid :=
  match fields.get? "id" with
  | some v => lift (uuid? v)
  | none => fresh

/-- The documents of the children, which may be left out.  Without a reader for them there must be
none. -/
def readChildren (fields : Table String Json.Node)
    (inner : Option (Json.Node → Reader BlockDocument)) : Reader (List BlockDocument) :=
  match fields.get? "children", inner with
  | none, _ => pure []
  | some (.array items), some read => items.mapM read
  | some _, _ => failure

/-- Reads one block document whose members are at most `depth` containers deep, given the reader of
its children. -/
def readOne (depth : Nat) (inner : Option (Json.Node → Reader BlockDocument)) (n : Json.Node) :
    Reader BlockDocument := do
  let (_, fields) ← lift (n.fields? fieldNames (depth + 1))
  let id ← readId fields
  let type ← lift (field? fields "type" Json.Node.text?)
  let parameters ← lift (fieldOr fields "parameters" {} fun v =>
    v.dictionary? depth Json.Node.toJson?)
  let children ← readChildren fields inner
  pure ⟨id, type, parameters, children⟩

/-- Reads a block document, looking into at most `depth` containers inside one another.  The
children are two levels further down, in a list of their own. -/
def read : Nat → Json.Node → Reader BlockDocument
  | 0, _ => failure
  | 1, n => readOne 0 none n
  | depth + 2, n => readOne (depth + 1) (some (read depth)) n

end BlockDocument

end Blockwork
