import Blockwork.Json.Node
import Blockwork.Uuid

/-!
# What can be wrong with a document
-/

namespace Blockwork

/-- Why a parameter of a document does not have the shape its schema asks for. -/
inductive Misfit where
  /-- Something else was expected. -/
  | expected (what : String) (found : Json)
  /-- A text is not a whole number. -/
  | notInteger (s : String)
  /-- An object is not the description of a value. -/
  | noValue
  /-- A field of a nested condition does not fit. -/
  | nested (block : BlockId) (name : String) (inner : Misfit)
deriving Inhabited

/-- The text of a parameter that does not fit. -/
def malformedText (block : BlockId) (name reason : String) : String :=
  "block " ++ block.text ++ ": parameter '" ++ name ++ "' is malformed: " ++ reason

/-- The text of a reason. -/
def Misfit.message : Misfit → String
  | .expected what found => "expected " ++ what ++ ", found " ++ found.compact
  | .notInteger s => "'" ++ s ++ "' is not an integer"
  | .noValue => "<value>"
  | .nested block name inner => malformedText block name inner.message

/-- Why a document is not a script. -/
inductive DocumentError where
  /-- It is not JSON, or not of the form of a document. -/
  | json
  /-- It has a block of a type that is not known. -/
  | unknownBlockType (name : String)
  /-- It has a parameter of the wrong shape. -/
  | malformedParameter (block : BlockId) (name : String) (reason : Misfit)
  /-- It uses an identity twice. -/
  | duplicateId (block : BlockId)
deriving Inhabited

/-- The text of an error. -/
def DocumentError.message : DocumentError → String
  | .json => "invalid document"
  | .unknownBlockType name => "unknown block type '" ++ name ++ "'"
  | .malformedParameter block name reason => malformedText block name reason.message
  | .duplicateId block => "duplicate block id " ++ block.text

end Blockwork
