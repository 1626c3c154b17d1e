import Blockwork.Exchange.World
import Blockwork.Session
import Blockwork.Tick

/-!
# Errors, outcomes and reports, exchanged

An error is an object with a word for its kind and, where there is more to say, the message.
-/

namespace Blockwork

open Exchange

namespace Exchange

/-- An error that is nothing but its kind. -/
def error (kind : String) : Json := .object [("error", .string kind)]

/-- An error with a message. -/
def errorWith (kind : String) (message : Json) : Json :=
  .object [("error", .string kind), ("message", message)]

end Exchange

namespace Failure

/-- One word for the kind of a failure. -/
def kind : Failure → String
  | .absent _ => "Parse"
  | .wrongType .. => "Type"
  | .undefined _ => "Arithmetic"
  | .excess _ => "Bounds"
  | .unknown _ => "Reference"
  | .conflict _ => "State"
  | .effect .. => "Effect"
  | .world _ => "Host"
  | .panic => "panic"

/-- The failure as JSON. -/
def toJson (e : Failure) : Json := errorWith e.kind (Exchange.text e.message)

end Failure

/-- The result of an attempt as JSON. -/
def Attempt.toJson {α : Type} (write : α → Json) : Attempt α → Json
  | .ok a => write a
  | .error e => e.toJson

/-- The outcome as JSON. -/
def Outcome.toJson (o : Outcome) : Json :=
  let detail := match o with
    | .return_ (some d) => [("value", d.toJson)]
    | .error e => [("error", .string e.kind), ("message", Exchange.text e.message)]
    | _ => []
  .object (("result", .string o.label) :: detail)

/-- The error as JSON. -/
def DocumentError.toJson (e : DocumentError) : Json :=
  match e with
  | .json => error "Json"
  | .unknownBlockType _ => errorWith "UnknownBlockType" (.string e.message)
  | .malformedParameter .. => errorWith "MalformedParameter" (.string e.message)
  | .duplicateId _ => errorWith "DuplicateId" (.string e.message)

namespace Problem

/-- One word for the kind of a problem. -/
def kind : Problem → String
  | .missingParameter .. => "MissingParameter"
  | .wrongValueKind .. => "WrongValueKind"
  | .invalidParameter .. => "InvalidParameter"
  | .unexpectedChildren .. => "UnexpectedChildren"
  | .danglingElse _ => "DanglingElse"
  | .misplacedEvent _ => "MisplacedEvent"
  | .duplicateId _ => "DuplicateId"
  | .duplicateFunction _ => "DuplicateFunction"

/-- The problem as JSON. -/
def toJson (p : Problem) : Json := errorWith p.kind (.string p.message)

/-- The verdict of a validation as JSON. -/
def verdict : Except Problem Unit → Json
  | .ok _ => .null
  | .error p => p.toJson

end Problem

/-- The error as JSON. -/
def ArchiveError.toJson : ArchiveError → Json
  | .io => error "Io"
  | .document e => .object [("error", .string "Document"), ("document", e.toJson)]

/-- The error as JSON. -/
def SessionError.toJson (e : SessionError) : Json :=
  match e with
  | .invalid p =>
    .object [("error", .string "Invalid"), ("message", .string e.message),
      ("validation", p.toJson)]
  | .archive a => .object [("error", .string "Store"), ("store", a.toJson)]
  | .unknownScript _ => errorWith "UnknownScript" (.string e.message)
  | .unknownLine .. => errorWith "UnknownLine" (.string e.message)

namespace Exchange

/-- The result of something that can fail, as JSON. -/
def result {ε α : Type} (failed : ε → Json) (write : α → Json) : Except ε α → Json
  | .ok a => write a
  | .error e => failed e

/-- What an archive loaded, as JSON. -/
def loaded : Except ArchiveError (Option (Script × Uuid.Supply)) → Json :=
  result ArchiveError.toJson (optional fun found => (ScriptDocument.ofScript found.1).toJson)

end Exchange

namespace LogEntry

/-- The entry in one line. -/
def text (e : LogEntry) : String :=
  e.block.text ++ " " ++ Named.name e.type ++ " " ++ e.outcome

/-- How many entries are shown in full. -/
def shownEntries : Nat := 40

/-- Entries as JSON; of very many the first and the last ten are shown. -/
def toJsons (entries : List LogEntry) : Json :=
  let n := entries.length
  let lines (l : List LogEntry) : Json := list (fun e => .string e.text) l
  if n ≤ shownEntries then lines entries
  else
    .object [("len", .natural n), ("head", lines (entries.take 10)),
      ("tail", lines (entries.drop (n - 10)))]

end LogEntry

/-- Work done on a tick as JSON. -/
def Work.toJson (tick : Nat) : Work → Json
  | .delayed d o =>
    .object [("tick", .natural tick), ("due", .natural d.due), ("delay", o.toJson),
      ("actor", uuid d.actor), ("vars", d.context.variablesJson)]
  | .polled t p =>
    let poll := match p with
      | .pending => .object [("next", .natural t.nextTick)]
      | .finished o => o.toJson
    .object [("tick", .natural tick), ("loop", .natural t.handle.id.toNat),
      ("actor", uuid t.actor), ("poll", poll), ("vars", t.context.variablesJson)]

/-- The parameter as JSON. -/
def ParamSpec.toJson (s : ParamSpec) : Json :=
  let kind := match s.shape with
    | .value none => "value"
    | .value (some k) => "value:" ++ Named.name k
    | .name names => "enum:" ++ Text.natural names.length
    | .bool => "bool"
    | .integer => "integer"
    | .text => "text"
    | .names => "names"
    | .condition => "condition"
    | .values => "map"
  .object [("name", .string s.name), ("kind", .string kind), ("required", .bool s.required)]

/-- The limits as JSON. -/
def Limits.toJson (l : Limits) : Json :=
  .object [("max_iterations", .natural l.maxIterations),
    ("max_call_depth", .natural l.maxCallDepth), ("magnitude_limit", float l.magnitude),
    ("text_input_limit", .natural l.textInput), ("text_argument_limit", .natural l.textArgument),
    ("text_output_limit", .natural l.textOutput), ("max_log_entries", .natural l.logEntries),
    ("rng_seed", optional .natural l.seed)]

/-- The block as a document. -/
def Block.toJson (b : Block) : Json := (BlockDocument.ofBlock b).toJson

/-- The script as a document. -/
def Script.toJson (s : Script) : Json := (ScriptDocument.ofScript s).toJson

/-- All there is to say about a block: its document, the verdict, the types it visits, and whether
decoding the document gives the block back. -/
def Block.report (b : Block) : List (String × Json) :=
  let again := result DocumentError.toJson (fun c => .bool (c == b)) (BlockDocument.ofBlock b).toBlock
  [("block", b.toJson), ("valid", Problem.verdict b.validate),
   ("walk", list (fun n => .string (Named.name n.blockType)) b.walk), ("roundtrip", again)]

/-- What there is to say about a line: its event and the length of its body. -/
def Line.report (l : Line) : Json :=
  .object [("event", optional (fun e => .string (Named.name e)) l.eventKind),
    ("body", .natural l.body.length)]

/-- All there is to say about a script: its document, problems, functions and lines. -/
def Script.report (s : Script) : List (String × Json) :=
  [("document", s.toJson), ("problems", list Problem.toJson s.problems),
   ("valid", Problem.verdict s.validate), ("functions", table (fun b => uuid b.id) s.functions),
   ("lines", list Line.report s.lines)]

end Blockwork
