import Blockwork.Text.Ascii

/-!
# The closed vocabularies

Events, loop modes, targets, operations, checks, value kinds and block types are each a closed list
of names.  A vocabulary lists its members once, in order, with one name each; reading a name goes
through that list and ignores the case of letters, except for block types, whose names are taken
literally.
-/

namespace Blockwork

/-- A closed vocabulary: its members in order and the name of each. -/
class Named (α : Type) where
  /-- The members. -/
  all : List α
  /-- The name of a member. -/
  name : α → String

/-- The member with a name, in any case. -/
def Named.ofName? {α : Type} [Named α] (s : String) : Option α :=
  (Named.all : List α).find? fun a => Text.sameLetters (Named.name a) s

/-- What a line can wait for. -/
inductive EventKind where
  | join | quit | chat | death | damage | attack | kill | projectileHit | blockBreak | blockPlace
  | interact | respawn | move | sneak | command
deriving DecidableEq, Inhabited

instance : Named EventKind where
  all := [.join, .quit, .chat, .death, .damage, .attack, .kill, .projectileHit, .blockBreak,
    .blockPlace, .interact, .respawn, .move, .sneak, .command]
  name
    | .join => "JOIN"
    | .quit => "QUIT"
    | .chat => "CHAT"
    | .death => "DEATH"
    | .damage => "DAMAGE"
    | .attack => "ATTACK"
    | .kill => "KILL"
    | .projectileHit => "PROJECTILE_HIT"
    | .blockBreak => "BLOCK_BREAK"
    | .blockPlace => "BLOCK_PLACE"
    | .interact => "INTERACT"
    | .respawn => "RESPAWN"
    | .move => "MOVE"
    | .sneak => "SNEAK"
    | .command => "COMMAND"

/-- The role of the acting actor in an event, besides `player`. -/
def EventKind.actorRole : EventKind → Option String
  | .damage => some "victim"
  | .attack => some "damager"
  | .kill => some "killer"
  | .projectileHit => some "shooter"
  | _ => none

/-- How a loop decides whether to go on. -/
inductive LoopMode where
  | times | while_ | forEach | forever | until_
deriving DecidableEq, Inhabited

instance : Named LoopMode where
  all := [.times, .while_, .forEach, .forever, .until_]
  name
    | .times => "TIMES"
    | .while_ => "WHILE"
    | .forEach => "FOR_EACH"
    | .forever => "FOREVER"
    | .until_ => "UNTIL"

/-- Loops whose only exit may be the cap on iterations. -/
def LoopMode.isUnbounded : LoopMode → Bool
  | .while_ | .forever | .until_ => true
  | _ => false

/-- Whom a target block makes the subject. -/
inductive TargetKind where
  | currentActor | allOnline | sameWorld | nearestActor | randomActor | nearestEntity
  | entitiesInRadius | actorByName | variable_
deriving DecidableEq, Inhabited

instance : Named TargetKind where
  all := [.currentActor, .allOnline, .sameWorld, .nearestActor, .randomActor, .nearestEntity,
    .entitiesInRadius, .actorByName, .variable_]
  name
    | .currentActor => "CURRENT_ACTOR"
    | .allOnline => "ALL_ONLINE"
    | .sameWorld => "SAME_WORLD"
    | .nearestActor => "NEAREST_ACTOR"
    | .randomActor => "RANDOM_ACTOR"
    | .nearestEntity => "NEAREST_ENTITY"
    | .entitiesInRadius => "ENTITIES_IN_RADIUS"
    | .actorByName => "ACTOR_BY_NAME"
    | .variable_ => "VARIABLE"

namespace TargetKind

/-- Whether the search has a radius. -/
def usesRadius : TargetKind → Bool
  | .nearestActor | .nearestEntity | .entitiesInRadius => true
  | _ => false

/-- Whether the target is given by a name. -/
def usesName : TargetKind → Bool
  | .actorByName | .variable_ => true
  | _ => false

end TargetKind

/-- What a variable block does. -/
inductive VariableOp where
  | set | add | subtract | multiply | divide | append | increment | decrement | clear | copy
  | randomNumber | randomChoice | toNumber | toText | actorInfo
deriving DecidableEq, Inhabited

instance : Named VariableOp where
  all := [.set, .add, .subtract, .multiply, .divide, .append, .increment, .decrement, .clear, .copy,
    .randomNumber, .randomChoice, .toNumber, .toText, .actorInfo]
  name
    | .set => "SET"
    | .add => "ADD"
    | .subtract => "SUBTRACT"
    | .multiply => "MULTIPLY"
    | .divide => "DIVIDE"
    | .append => "APPEND"
    | .increment => "INCREMENT"
    | .decrement => "DECREMENT"
    | .clear => "CLEAR"
    | .copy => "COPY"
    | .randomNumber => "RANDOM_NUMBER"
    | .randomChoice => "RANDOM_CHOICE"
    | .toNumber => "TO_NUMBER"
    | .toText => "TO_TEXT"
    | .actorInfo => "ACTOR_INFO"

/-- Whether the operation reads a value. -/
def VariableOp.needsValue : VariableOp → Bool
  | .increment | .decrement | .clear | .toNumber | .toText => false
  | _ => true

/-- What a math block computes. -/
inductive MathOp where
  | add | subtract | multiply | divide | modulo | power | sqrt | abs | round | floor | ceil | min
  | max | random
deriving DecidableEq, Inhabited

instance : Named MathOp where
  all := [.add, .subtract, .multiply, .divide, .modulo, .power, .sqrt, .abs, .round, .floor, .ceil,
    .min, .max, .random]
  name
    | .add => "ADD"
    | .subtract => "SUBTRACT"
    | .multiply => "MULTIPLY"
    | .divide => "DIVIDE"
    | .modulo => "MODULO"
    | .power => "POWER"
    | .sqrt => "SQRT"
    | .abs => "ABS"
    | .round => "ROUND"
    | .floor => "FLOOR"
    | .ceil => "CEIL"
    | .min => "MIN"
    | .max => "MAX"
    | .random => "RANDOM"

/-- Whether the operation has a second operand. -/
def MathOp.isBinary : MathOp → Bool
  | .sqrt | .abs | .round | .floor | .ceil => false
  | _ => true

/-- What a text block computes. -/
inductive TextOp where
  | concat | replace | uppercase | lowercase | trim | length | splitJoin | contains | startsWith
  | endsWith
deriving DecidableEq, Inhabited

instance : Named TextOp where
  all := [.concat, .replace, .uppercase, .lowercase, .trim, .length, .splitJoin, .contains,
    .startsWith, .endsWith]
  name
    | .concat => "CONCAT"
    | .replace => "REPLACE"
    | .uppercase => "UPPERCASE"
    | .lowercase => "LOWERCASE"
    | .trim => "TRIM"
    | .length => "LENGTH"
    | .splitJoin => "SPLIT_JOIN"
    | .contains => "CONTAINS"
    | .startsWith => "STARTS_WITH"
    | .endsWith => "ENDS_WITH"

/-- Whether the operation has a second operand. -/
def TextOp.isBinary : TextOp → Bool
  | .uppercase | .lowercase | .trim | .length => false
  | _ => true

/-- What a condition asks. -/
inductive Check where
  | equals | notEquals | greaterThan | greaterOrEqual | lessThan | lessOrEqual | contains
  | startsWith | variableExists | targetExists | targetInWorld | healthAbove | chance
deriving DecidableEq, Inhabited

instance : Named Check where
  all := [.equals, .notEquals, .greaterThan, .greaterOrEqual, .lessThan, .lessOrEqual, .contains,
    .startsWith, .variableExists, .targetExists, .targetInWorld, .healthAbove, .chance]
  name
    | .equals => "EQUALS"
    | .notEquals => "NOT_EQUALS"
    | .greaterThan => "GREATER_THAN"
    | .greaterOrEqual => "GREATER_OR_EQUAL"
    | .lessThan => "LESS_THAN"
    | .lessOrEqual => "LESS_OR_EQUAL"
    | .contains => "CONTAINS"
    | .startsWith => "STARTS_WITH"
    | .variableExists => "VARIABLE_EXISTS"
    | .targetExists => "TARGET_EXISTS"
    | .targetInWorld => "TARGET_IN_WORLD"
    | .healthAbove => "HEALTH_ABOVE"
    | .chance => "CHANCE"

namespace Check

/-- Whether the check reads its left operand. -/
def readsLeft : Check → Bool
  | .targetExists => false
  | _ => true

/-- Whether the check reads its right operand. -/
def readsRight : Check → Bool
  | .variableExists | .targetInWorld | .healthAbove | .chance | .targetExists => false
  | _ => true

end Check

/-- The kinds of authored values. -/
inductive ValueKind where
  | text | number | variable_ | location | item | sound | particle | potionEffect
deriving DecidableEq, Inhabited

instance : Named ValueKind where
  all := [.text, .number, .variable_, .location, .item, .sound, .particle, .potionEffect]
  name
    | .text => "text"
    | .number => "number"
    | .variable_ => "variable"
    | .location => "location"
    | .item => "item"
    | .sound => "sound"
    | .particle => "particle"
    | .potionEffect => "potion_effect"

/-- The types of blocks. -/
inductive BlockType where
  | event | if_ | else_ | repeat_ | target | function | callFunction | variable_ | math | text
  | message | teleport | sideEffect | delay | stopLoop | break_ | continue_ | return_
deriving DecidableEq, Inhabited

instance : Named BlockType where
  all := [.event, .if_, .else_, .repeat_, .target, .function, .callFunction, .variable_, .math,
    .text, .message, .teleport, .sideEffect, .delay, .stopLoop, .break_, .continue_, .return_]
  name
    | .event => "EVENT"
    | .if_ => "IF"
    | .else_ => "ELSE"
    | .repeat_ => "REPEAT"
    | .target => "TARGET"
    | .function => "FUNCTION"
    | .callFunction => "CALL_FUNCTION"
    | .variable_ => "VARIABLE"
    | .math => "MATH"
    | .text => "TEXT"
    | .message => "MESSAGE"
    | .teleport => "TELEPORT"
    | .sideEffect => "SIDE_EFFECT"
    | .delay => "DELAY"
    | .stopLoop => "STOP_LOOP"
    | .break_ => "BREAK"
    | .continue_ => "CONTINUE"
    | .return_ => "RETURN"

namespace BlockType

/-- The type with exactly this name. -/
def ofName? (s : String) : Option BlockType :=
  (Named.all : List BlockType).find? fun t => Named.name t == s

/-- Blocks that run their own children. -/
def isControlFlow : BlockType → Bool
  | .if_ | .else_ | .repeat_ | .target | .function | .delay => true
  | _ => false

/-- Only control-flow blocks may have children. -/
def acceptsChildren (t : BlockType) : Bool := t.isControlFlow

end BlockType

end Blockwork
