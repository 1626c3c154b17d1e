import Blockwork.Proofs.Authored
import Blockwork.Proofs.Context
import Blockwork.Resolve

/-!
# Locations that were committed

A location is stored as a text with its world and its coordinates, and a text that stands where a location is
wanted is read as a place.  So a committed location leads back to its world and its coordinates, but for the
signs of zeros, and always straight ahead: its angles are not stored (`Scene.location_of_commit`).

## What is load-bearing

* `Place.parse_text_location`: a location is shown in four parts, none of which has a comma in it, whatever its
  numbers are.
* `Scene.Names`: the values through which a script gets at a variable, by its name and as a text that is nothing
  but its name in braces.
-/

namespace Blockwork

open Text (IsPart)

/-- A location that is shown is read as a place in its world that is not turned. -/
theorem Place.parse_text_location {l : Location} (named : l.world ≠ "") (part : IsPart l.world) :
    parse l.text = { world := l.world, x := l.unsigned.x, y := l.unsigned.y, z := l.unsigned.z } := by
  have zero : Numeral.single? "0" = some 0 := rfl
  have parts : Text.commaParts l.text =
      [l.world, Decimal.display l.x, Decimal.display l.y, Decimal.display l.z] := by
    apply Text.commaParts_join (by simp)
    simpa using ⟨part, Decimal.isPart_display l.x, Decimal.isPart_display l.y, Decimal.isPart_display l.z⟩
  simp [parse, parts, ofParts?, Decimal.float?_display_unsigned, zero, named, Location.unsigned]

namespace Location

/-- The location, facing straight ahead. -/
def straight (l : Location) : Location := { l with yaw := 0, pitch := 0 }

/-- What faces straight ahead already is the same location. -/
theorem straight_unsigned_iff (l : Location) :
    l.unsigned.straight.unsigned = l.unsigned ↔ (l.yaw == 0) = true ∧ (l.pitch == 0) = true := by
  rw [← Binary.unsignedSingle_eq_zero_iff, ← Binary.unsignedSingle_eq_zero_iff]
  constructor
  · intro same
    have yaw := congrArg Location.yaw same
    have pitch := congrArg Location.pitch same
    simp only [unsigned, straight] at yaw pitch
    exact ⟨yaw.symm, pitch.symm⟩
  · rintro ⟨yaw, pitch⟩
    simp only [unsigned, straight, Binary.unsigned_unsigned, yaw, pitch]

end Location

namespace Scene

/-- A value that is a variable and nothing else. -/
inductive Names (s : Scene) (n : String) : Value → Prop where
  /-- By its name, which may be a template. -/
  | name {raw : String} (same : s.variableName raw = n) : Names s n (.variable_ raw)
  /-- As a text that is nothing but its name in braces. -/
  | text {raw : String} (braced : bracedName? (Text.trimChars raw.toList) = some n) : Names s n (.text raw)

/-- A value that is a variable has the variable's value. -/
theorem resolve_of_names {s : Scene} {n : String} {v : Value} (names : s.Names n v) {d : Datum}
    (found : s.context.get? n = some d) : s.resolve v = d := by
  cases names with
  | name same => rw [resolve, same, found, Option.getD_some]
  | text braced => rw [resolve, wholeVariable?, braced, Option.bind_some, found]

variable {l : Location} {n : String}

/-- **A committed location leads back to its world and its coordinates, and its angles are lost**, in every run
that sees it through a new snapshot. -/
theorem location_of_commit (named : l.world ≠ "") (part : IsPart l.world) (lasting : isTransient n = false)
    (c : Context) (globals : Table String Scalar) {s : Scene}
    (fresh : s.context.frame.globals = snapshot ((c.set n (.location l)).commit globals))
    (unset : s.context.scope.locals.get? n = none) {v : Value} (names : s.Names n v) (what : String) :
    s.location (some v) what = .ok l.unsigned.straight ∧
    ((∃ l', s.location (some v) what = .ok l' ∧ l'.unsigned = l.unsigned) ↔
      (l.yaw == 0) = true ∧ (l.pitch == 0) = true) := by
  have own : (c.set n (.location l)).scope.locals.get? n = some (some (.location l)) :=
    Table.get?_insert_self ..
  have found : s.context.get? n = some (.text l.text) := by
    rw [Context.get?_of_locals unset, fresh, get?_snapshot, Context.get?_commit _ _ lasting, own]
    rfl
  have leads : s.location (some v) what = .ok l.unsigned.straight := by
    have required : s.require (some v) what = .ok (.text l.text) :=
      congrArg Except.ok (resolve_of_names names found)
    rw [location, required]
    show Except.ok (s.locate (Place.parse l.text)) = _
    rw [Place.parse_text_location named part]
    rfl
  refine ⟨leads, ?_⟩
  rw [← Location.straight_unsigned_iff, leads]
  constructor
  · rintro ⟨l', ⟨⟩, same⟩
    exact same
  · intro same
    exact ⟨_, rfl, same⟩

/-- Where an actor stood, and the variable that keeps it. -/
def turned : Location := { world := "world", x := 8.5, y := 64, z := -3, yaw := 90, pitch := 10 }

/-- A run that has committed where an actor stood, and goes on with a new snapshot. -/
def remembering : Scene where
  context := ((Context.detached ⟨1⟩ 0).set "home" (.location turned)).refresh
    (((Context.detached ⟨1⟩ 0).set "home" (.location turned)).commit {})
  world := {}

/-- Going back to a place that was left facing another way. -/
theorem location_of_commit_turned :
    remembering.location (some (.text "\x7bhome\x7d")) "location" = .ok turned.unsigned.straight ∧
    ¬ ∃ l', remembering.location (some (.text "\x7bhome\x7d")) "location" = .ok l' ∧
      l'.unsigned = turned.unsigned := by
  have part : IsPart turned.world := by
    apply IsPart.of_forall
    have letters : turned.world.toList.all Char.isAlpha = true := rfl
    exact fun c mem => Text.plain_of_isAlpha (List.all_eq_true.mp letters c mem)
  have names : remembering.Names "home" (.text "\x7bhome\x7d") := .text (by decide +kernel)
  obtain ⟨leads, same⟩ := location_of_commit (l := turned) (by decide) part rfl (Context.detached ⟨1⟩ 0) {} rfl
    rfl names "location"
  refine ⟨leads, ?_⟩
  rw [same]
  decide +kernel

end Scene

end Blockwork
