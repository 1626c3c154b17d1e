import Blockwork.Datum
import Blockwork.Table

/-!
# Side effects

Requests to subsystems outside the engine end at a handler.  One handler refuses everything, one
records what was requested and can be told to fail some kinds, and one writes each request to a log
and refuses the kinds on a list.
-/

namespace Blockwork

/-- A request as it reached the handler. -/
structure Performed where
  /-- On whose behalf. -/
  actor : ActorId
  /-- What was requested. -/
  kind : String
  /-- Its arguments. -/
  parameters : Table String Datum
deriving Inhabited

/-- What becomes of requests. -/
inductive Effects where
  /-- All are refused. -/
  | refusing
  /-- Those of a failing kind are refused with its reason, the others recorded, newest first. -/
  | recording (failing : Table String String) (performed : List Performed)
  /-- Those of a denied kind are refused, the others written to a log, newest first. -/
  | logging (denied : List String) (log : List String)
deriving Inhabited

namespace Effects

/-- A handler that logs requests and refuses the kinds on a comma separated list. -/
def denying (denied : String) : Effects :=
  .logging ((Text.commaParts denied).filter fun k => !k.isEmpty) []

/-- A request in one line. -/
def requestLine (actor : ActorId) (kind : String) (parameters : Table String Datum) : String :=
  let arguments := parameters.toList.map fun (name, d) => name ++ "=" ++ d.asText
  actor.text ++ " requested " ++ kind ++ "(" ++ Text.join ", " arguments ++ ")"

/-- Passes a request to the handler. -/
def perform (e : Effects) (actor : ActorId) (kind : String) (parameters : Table String Datum) :
    Except String Unit × Effects :=
  match e with
  | .refusing => (.error ("no handler for side effect '" ++ kind ++ "'"), e)
  | .recording failing performed =>
    match failing.get? kind with
    | some reason => (.error reason, e)
    | none => (.ok (), .recording failing (⟨actor, kind, parameters⟩ :: performed))
  | .logging denied log =>
    if denied.contains kind then (.error (kind ++ " is disabled on this host"), e)
    else (.ok (), .logging denied (requestLine actor kind parameters :: log))

/-- The requests recorded so far, oldest first. -/
def performed : Effects → List Performed
  | .recording _ performed => performed.reverse
  | _ => []

/-- The lines logged so far, oldest first. -/
def logged : Effects → List String
  | .logging _ log => log.reverse
  | _ => []

/-- Forgets the lines logged so far. -/
def clearLog : Effects → Effects
  | .logging denied _ => .logging denied []
  | e => e

end Effects

end Blockwork
