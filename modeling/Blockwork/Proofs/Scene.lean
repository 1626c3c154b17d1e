import Blockwork.Interpreter

/-!
# What a run can tell apart

A run reads its variables by name.  It cannot tell whether a value comes from the overlay or from the
snapshot, and it sees neither the log and the room in it nor the number of the signal that cancels it.
Scenes that differ in nothing else *resemble* each other, and everything that is worked out from a
scene is the same in both: the text of a template, the value of a parameter, the answer of a condition,
the subject that is found, the change to a variable, the function that is called.

There is one lemma for each function of a scene, in the order in which the functions are defined, and
each is an equation of functions, so that the next one can rewrite with it.

Values need less.  Of the world they look at the default world and at the actors by identity, and scenes
that have these, the variables and the roles in common *agree*.  So the order in which actors came online
does not matter to them.
-/

namespace Blockwork

/-- Frames that only the snapshot, the room in the log and the cancelling signal tell apart. -/
structure Frame.Resembles (f g : Frame) : Prop where
  /-- The same actor. -/
  actor : f.actor = g.actor
  /-- The same line. -/
  line : f.line = g.line
  /-- The same roles. -/
  roles : f.roles = g.roles
  /-- The same subject. -/
  target : f.target = g.target
  /-- The same functions. -/
  functions : f.functions = g.functions
  /-- As many calls in progress. -/
  callDepth : f.callDepth = g.callDepth

namespace Frame.Resembles

variable {f g : Frame}

@[refl] theorem refl (f : Frame) : f.Resembles f := ⟨rfl, rfl, rfl, rfl, rfl, rfl⟩

theorem withTarget (h : f.Resembles g) (target : Target) :
    ({ f with target := target } : Frame).Resembles { g with target := target } :=
  { h with target := rfl }

end Frame.Resembles

/-- Scenes in which authored values have the same values. -/
structure Scene.Agrees (s t : Scene) : Prop where
  /-- Every variable has the same value. -/
  reads : s.context.get? = t.context.get?
  /-- The same roles. -/
  roles : s.context.frame.roles = t.context.frame.roles
  /-- The same actors, by identity. -/
  actors : s.world.actor? = t.world.actor?
  /-- The same default world. -/
  defaultWorld : s.world.defaultWorld = t.world.defaultWorld

/-- Scenes in which a run sees the same. -/
structure Scene.Resembles (s t : Scene) : Prop where
  /-- Every variable has the same value. -/
  reads : s.context.get? = t.context.get?
  /-- The frames resemble each other. -/
  frame : s.context.frame.Resembles t.context.frame
  /-- The same world. -/
  world : s.world = t.world

namespace Scene

/-! ## Values -/

mutual

/-- Values are displayed as the world has them. -/
theorem display_eq_of_world {s t : Scene} (actors : s.world.actor? = t.world.actor?) :
    ∀ d : Datum, s.display d = t.display d
  | .actor id => by rw [display, display, actors]
  | .list items => by rw [display, display, displayAll_eq_of_world actors items]
  | .nothing | .boolean _ | .number _ | .text _ | .entity _ | .location _ | .item _ | .sound _
  | .particle _ | .potion _ => by simp only [display]

theorem displayAll_eq_of_world {s t : Scene} (actors : s.world.actor? = t.world.actor?) :
    ∀ items : List Datum, s.displayAll items = t.displayAll items
  | [] => by rw [displayAll, displayAll]
  | d :: rest => by
      rw [displayAll, displayAll, display_eq_of_world actors d, displayAll_eq_of_world actors rest]

end

namespace Agrees

variable {s t : Scene}

theorem display (h : s.Agrees t) : s.display = t.display :=
  funext (display_eq_of_world h.actors)

theorem lookup (h : s.Agrees t) : s.lookup = t.lookup := by
  funext m name
  simp only [Scene.lookup, Context.role?, h.roles, h.reads, h.display]

theorem substitute (h : s.Agrees t) : s.substitute = t.substitute := by
  funext template
  rw [Scene.substitute, Scene.substitute, h.lookup]

theorem wholeVariable? (h : s.Agrees t) : s.wholeVariable? = t.wholeVariable? := by
  funext raw
  rw [Scene.wholeVariable?, Scene.wholeVariable?, h.reads]

theorem variableName (h : s.Agrees t) : s.variableName = t.variableName := by
  funext raw
  simp only [Scene.variableName, h.substitute]

theorem locate (h : s.Agrees t) : s.locate = t.locate := by
  funext p
  rw [Scene.locate, Scene.locate, h.defaultWorld]

theorem resolve (h : s.Agrees t) : s.resolve = t.resolve := by
  funext v
  cases v with
  | text raw => simp only [Scene.resolve, h.wholeVariable?, h.substitute]
  | number n => simp only [Scene.resolve, h.wholeVariable?, h.substitute]
  | variable_ name => simp only [Scene.resolve, h.reads, h.variableName]
  | location p => simp only [Scene.resolve, h.locate]
  | item _ => rfl
  | sound _ => rfl
  | particle _ => rfl
  | potionEffect _ => rfl

theorem resolveOptional (h : s.Agrees t) : s.resolveOptional = t.resolveOptional := by
  funext v
  cases v with
  | none => rfl
  | some v => exact congrFun h.resolve v

theorem require (h : s.Agrees t) : s.require = t.require := by
  funext v what
  cases v with
  | none => rfl
  | some v => exact congrArg Except.ok (congrFun h.resolve v)

theorem number (h : s.Agrees t) : s.number = t.number := by
  funext v what
  simp only [Scene.number, h.require]

theorem text (h : s.Agrees t) : s.text = t.text := by
  funext v what
  simp only [Scene.text, h.require, h.display]

theorem radius (h : s.Agrees t) : s.radius = t.radius := by
  funext search
  unfold Scene.radius
  rw [h.number]

end Agrees

namespace Resembles

variable {s t : Scene}

theorem agrees (h : s.Resembles t) : s.Agrees t :=
  ⟨h.reads, h.frame.roles, congrArg World.actor? h.world, congrArg World.defaultWorld h.world⟩

theorem location (h : s.Resembles t) : s.location = t.location := by
  funext v what
  simp only [Scene.location, h.agrees.require, h.agrees.locate, h.world]

theorem onlineActors (h : s.Resembles t) : s.onlineActors = t.onlineActors := by
  funext none'
  rw [Scene.onlineActors, Scene.onlineActors, h.frame.target, h.world]

/-! ## Conditions and subjects -/

theorem targetExists (h : s.Resembles t) : s.targetExists = t.targetExists := by
  rw [Scene.targetExists, Scene.targetExists, h.frame.target, h.world]

theorem variableOperand (h : s.Resembles t) : s.variableOperand = t.variableOperand := by
  funext v
  unfold Scene.variableOperand
  rw [h.agrees.variableName]

theorem contains (h : s.Resembles t) : s.context.contains = t.context.contains := by
  funext name
  rw [Context.contains, Context.contains, h.reads]

theorem answer (h : s.Resembles t) : s.answer = t.answer := by
  funext check c dice
  unfold Scene.answer
  rw [h.agrees.require, h.agrees.display, h.variableOperand, h.contains, h.targetExists,
    h.onlineActors, h.agrees.number]

theorem evaluate (h : s.Resembles t) : s.evaluate = t.evaluate := by
  funext c dice
  unfold Scene.evaluate
  rw [h.answer]

theorem findTarget (h : s.Resembles t) : s.findTarget = t.findTarget := by
  have around : s.actorsAround = t.actorsAround := by
    funext me radius
    rw [Scene.actorsAround, Scene.actorsAround, h.world]
  have entities : s.entitiesAround = t.entitiesAround := by
    funext center radius
    rw [Scene.entitiesAround, Scene.entitiesAround, h.world]
  have target : s.targetOf = t.targetOf := by
    funext d
    unfold Scene.targetOf
    rw [h.world]
  funext search dice
  unfold Scene.findTarget
  rw [h.frame.actor, h.world, h.agrees.radius, around, entities, h.agrees.text, target, h.reads,
    h.agrees.variableName]

/-! ## Single blocks -/

theorem variableUpdate (h : s.Resembles t) : s.variableUpdate = t.variableUpdate := by
  funext v dice
  unfold Scene.variableUpdate
  rw [h.agrees.variableName, h.reads, h.agrees.require, h.agrees.number, h.agrees.display,
    h.agrees.text, h.onlineActors]

theorem calculation (h : s.Resembles t) : s.calculation = t.calculation := by
  funext m limit dice
  unfold Scene.calculation
  rw [h.agrees.number, h.agrees.variableName]

theorem textResult (h : s.Resembles t) : s.textResult = t.textResult := by
  funext work limits
  unfold Scene.textResult
  rw [h.agrees.text, h.agrees.display, h.agrees.resolveOptional, h.agrees.variableName]

theorem messageTo (h : s.Resembles t) : s.messageTo = t.messageTo := by
  funext shown
  unfold Scene.messageTo
  rw [h.agrees.text, h.onlineActors]

theorem moveTo (h : s.Resembles t) : s.moveTo = t.moveTo := by
  funext place
  unfold Scene.moveTo
  rw [h.location, h.onlineActors]

theorem argument (h : s.Resembles t) : s.argument = t.argument := by
  funext a
  unfold Scene.argument
  rw [h.agrees.substitute, h.agrees.resolve]

theorem returned (h : s.Resembles t) : s.returned = t.returned := by
  funext v
  unfold Scene.returned
  rw [h.agrees.resolveOptional]

theorem callee (h : s.Resembles t) : Interpreter.callee s = Interpreter.callee t := by
  funext c
  unfold Interpreter.callee
  rw [h.frame.functions, h.argument]

theorem cursor (h : s.Resembles t) : Cursor.start s = Cursor.start t := by
  funext limits r
  unfold Cursor.start
  rw [h.agrees.number, h.agrees.require]

end Resembles

end Scene

end Blockwork
