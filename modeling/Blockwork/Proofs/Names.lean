import Blockwork.Proofs.Authored
import Blockwork.Proofs.Template
import Blockwork.Run

/-!
# Names of variables

There are three ways to write the name of a variable: plainly, in braces, and between percent signs.  When a
value is authored as a reference, the markers are dropped, and all three are the same name
(`stripMarkers_spelled`).

A name that is a parameter of its own is a template and is worked out when the block runs
(`Scene.variableName`).  Then only braces are dropped.  Percent signs are a placeholder like any other: what is
named is not the variable between them, but whatever the text of the role or of the variable of this name spells
(`Scene.spelled_names`).

## What is load-bearing

* `Template.unwrapChars_spelled`: a spelling begins with its marker or with a character of the name, so it is
  unwrapped of its own marker and of no other.
* `Scene.Denotes` and `Scene.StandsFor`: what it is to be a variable for the blocks that have the name of one as
  a parameter and for those that have a value there.
-/

namespace Blockwork

open Template

/-! ## Ways to write a name -/

namespace Template

/-- No character of a name is blank. -/
theorem isBlank_of_isNameChar {c : Char} (letter : isNameChar c = true) : Text.isBlank c = false := by
  simp only [isNameChar, Text.isAsciiAlphanumeric, Char.isAlphanum, Bool.or_eq_true,
    decide_eq_true_eq] at letter
  rcases letter with ((((letter | digit) | rfl) | rfl) | rfl) | rfl
  · exact (Text.plain_of_isAlpha letter).2
  · exact Text.isBlank_of_isDigit digit
  all_goals rfl

/-- A name as it is written: plainly, or with markers around it. -/
def spelled (name : List Char) : Option Marker → String
  | none => String.ofList name
  | some m => String.ofList (Piece.placeholder m name).chars

variable {name : List Char}

theorem isTrimmed_spelled (named : isName name = true) (m : Option Marker) :
    Text.IsTrimmed (spelled name m).toList := by
  cases m with
  | none =>
      rw [spelled, String.toList_ofList]
      exact .of_forall fun c mem => isBlank_of_isNameChar ((isName_iff.mp named).2 c mem)
  | some m =>
      rw [spelled, String.toList_ofList, Piece.chars]
      constructor
      · rintro _ ⟨⟩
        cases m <;> rfl
      · rw [List.getLast?_concat]
        rintro _ ⟨⟩
        cases m <;> rfl

/-- A spelling is unwrapped of its own marker only. -/
theorem unwrapChars_spelled (named : isName name = true) (m : Marker) (n : Option Marker) :
    Text.unwrapChars m.opening m.closing (spelled name n).toList = if n = some m then some name else none := by
  split_ifs with own
  · rw [own, Text.unwrapChars_eq_some_iff, spelled, String.toList_ofList, Piece.chars]
  · rw [Option.eq_none_iff_forall_ne_some]
    intro inner wrapped
    rw [Text.unwrapChars_eq_some_iff] at wrapped
    cases n with
    | none =>
        rw [spelled, String.toList_ofList] at wrapped
        have letter : isNameChar m.opening = true := (isName_iff.mp named).2 _ (by simp [wrapped])
        rw [isNameChar_opening] at letter
        cases letter
    | some n =>
        rw [spelled, String.toList_ofList, Piece.chars] at wrapped
        exact own (congrArg some (Marker.opening_inj (List.cons.inj wrapped).1))

/-- The plain name is the only spelling without a marker in it. -/
theorem spelled_some_ne (named : isName name = true) (m : Marker) :
    spelled name (some m) ≠ String.ofList name := by
  intro same
  have unwrapped := unwrapChars_spelled named m (some m)
  have plain := unwrapChars_spelled named m none
  rw [same] at unwrapped
  rw [if_pos rfl] at unwrapped
  rw [if_neg nofun, spelled, unwrapped] at plain
  cases plain

end Template

variable {name : List Char}

/-- **However a name is written, a reference is to the variable of this name.** -/
theorem stripMarkers_spelled (named : isName name = true) (m : Option Marker) :
    stripMarkers (spelled name m) = String.ofList name := by
  have brace : Text.unwrapChars '\x7b' '\x7d' _ = _ := unwrapChars_spelled named .brace m
  have percent : Text.unwrapChars '%' '%' _ = _ := unwrapChars_spelled named .percent m
  rw [stripMarkers, Text.isTrimmed_iff.mp (isTrimmed_spelled named m), brace, percent]
  rcases m with _ | _ | _
  · simp [spelled]
  · simp
  · simp

namespace Scene

/-- Only braces around a name are dropped. -/
theorem bracedName?_spelled (named : isName name = true) (m : Option Marker) :
    bracedName? (spelled name m).toList = if m = some .brace then some (String.ofList name) else none := by
  have unwrapped : Text.unwrapChars '\x7b' '\x7d' _ = _ := unwrapChars_spelled named .brace m
  rw [bracedName?, unwrapped]
  split_ifs
  · dsimp only
    rw [if_pos named]
  · rfl

/-- A marked name alone is filled in by what is found for it. -/
theorem substitute_spelled (s : Scene) (named : isName name = true) (m : Marker) :
    s.substitute (spelled name (some m)) =
      (s.lookup m (String.ofList name)).getD (spelled name (some m)) := by
  have lone := @toList_fill_lone m [] name [] named nofun nofun s.lookup
  rw [List.nil_append, List.append_nil, List.nil_append, List.append_nil] at lone
  rw [← String.toList_inj, substitute, spelled, lone, Piece.fill]
  cases s.lookup m (String.ofList name) with
  | none => rw [Option.getD_none, String.toList_ofList]
  | some text => rfl

/-- A name alone stands for itself. -/
theorem substitute_name (s : Scene) (named : isName name = true) :
    s.substitute (String.ofList name) = String.ofList name :=
  fill_plain (fun c mem => marker?_of_isNameChar ((isName_iff.mp named).2 c mem)) s.lookup

/-- A name that is written plainly or in braces is the name. -/
theorem variableName_spelled (s : Scene) (named : isName name = true) {m : Option Marker}
    (other : m ≠ some .percent) : s.variableName (spelled name m) = String.ofList name := by
  have trimmed := Text.trim_eq_self_iff.mpr (isTrimmed_spelled named m)
  have plain : Text.trim (String.ofList name) = String.ofList name :=
    Text.trim_eq_self_iff.mpr (isTrimmed_spelled named none)
  rw [variableName, trimmed, bracedName?_spelled named]
  rcases m with _ | _ | _
  · rw [if_neg (by simp), Option.getD_none, spelled, s.substitute_name named, plain]
  · exact absurd rfl other
  · rw [if_pos rfl, Option.getD_some, s.substitute_name named, plain]

/-- A name between percent signs is filled in. -/
theorem variableName_percent (s : Scene) (named : isName name = true) :
    s.variableName (spelled name (some .percent)) =
      Text.trim ((s.lookup .percent (String.ofList name)).getD (spelled name (some .percent))) := by
  have trimmed := Text.trim_eq_self_iff.mpr (isTrimmed_spelled named (some .percent))
  rw [variableName, trimmed, bracedName?_spelled named]
  rw [if_neg (by simp), Option.getD_none, s.substitute_spelled named]

/-! ## What a name denotes -/

/-- A name that is a parameter of its own is that of a variable. -/
structure Denotes (s : Scene) (w n : String) : Prop where
  /-- It comes to the name of the variable. -/
  name : s.variableName w = n
  /-- What changes a variable changes it. -/
  changes : ∀ (v : VariableStep) dice x dice', v.name = w → s.variableUpdate v dice = (.ok x, dice') →
    x.1 = n
  /-- A calculation has its result there. -/
  calculates : ∀ (m : MathStep) limit dice x dice', m.result = w →
    s.calculation m limit dice = (.ok x, dice') → x.1 = n
  /-- Work on text has its result there. -/
  writes : ∀ (t : TextStep) limits x, t.result = w → s.textResult t limits = .ok x → x.1 = n

/-- Two ways to write a name that make no difference. -/
structure Alike (s : Scene) (w w' : String) : Prop where
  /-- Not to what changes a variable. -/
  changes : ∀ (v : VariableStep) dice,
    s.variableUpdate { v with name := w } dice = s.variableUpdate { v with name := w' } dice
  /-- Not to a calculation. -/
  calculates : ∀ (m : MathStep) limit dice,
    s.calculation { m with result := w } limit dice = s.calculation { m with result := w' } limit dice
  /-- Not to work on text. -/
  writes : ∀ (t : TextStep) limits,
    s.textResult { t with result := w } limits = s.textResult { t with result := w' } limits

/-- A value is a variable where the name of one is asked for. -/
structure StandsFor (s : Scene) (v : Value) (n : String) : Prop where
  /-- It is copied. -/
  copied : ∀ (u : VariableStep) dice, u.op = some .copy → u.value = some v →
    s.variableName u.name ≠ "" → s.variableUpdate u dice =
      (match s.context.get? n with
        | some d => .ok (s.variableName u.name, .set d)
        | none => .error (.unknown (.variable_ n)), dice)
  /-- It is asked whether it exists. -/
  asked : ∀ (c : Condition) dice, c.check = some .variableExists → c.left = some v →
    s.evaluate c dice = (.ok (s.context.contains n != c.invert), dice)
  /-- It is the subject. -/
  found : ∀ (t : Targeting) dice, t.kind = some .variable_ → t.name = some v →
    s.findTarget t dice = (.ok (s.targetOf (s.context.get? n)), dice)

/-- What is worked out for a name is for this name. -/
theorem fst_of_map_eq_ok {α β : Type} {u : Attempt α} {n : String} {g : α → String × β} {x : String × β}
    (done : u.map g = .ok x) (same : ∀ a, (g a).1 = n) : x.1 = n := by
  cases u with
  | error e => cases done
  | ok a =>
      cases done
      exact same a

/-- Of two things that succeed one after the other, the first does. -/
theorem exists_of_bind_eq_ok {α β : Type} {u : Attempt α} {k : α → Attempt β} {y : β}
    (done : u >>= k = .ok y) : ∃ a, u = .ok a ∧ k a = .ok y := by
  cases u with
  | error e => cases done
  | ok a => exact ⟨a, rfl, done⟩

theorem fst_of_variableUpdate {s : Scene} {v : VariableStep} {dice dice' : Dice} {x : String × Update}
    (done : s.variableUpdate v dice = (.ok x, dice')) : x.1 = s.variableName v.name := by
  unfold variableUpdate at done
  split at done
  · cases done
  · next op _ =>
    dsimp only at done
    split at done
    · cases done
    cases op with
    | randomNumber =>
        dsimp only at done
        split at done
        · cases done
        split at done
        · cases done
        · exact fst_of_map_eq_ok (Prod.mk.inj done).1 fun _ => rfl
    | randomChoice =>
        dsimp only at done
        split at done
        · cases done
        · exact fst_of_map_eq_ok (Prod.mk.inj done).1 fun _ => rfl
    | _ => exact fst_of_map_eq_ok (Prod.mk.inj done).1 fun _ => rfl

theorem fst_of_calculation {s : Scene} {m : MathStep} {limit : Float} {dice dice' : Dice}
    {x : String × Float} (done : s.calculation m limit dice = (.ok x, dice')) :
    x.1 = s.variableName m.result := by
  unfold calculation at done
  cases kind : m.op with
  | none =>
      rw [kind] at done
      cases done
  | some op =>
      rw [kind] at done
      dsimp only at done
      split at done
      · cases done
      · next operands =>
        refine fst_of_map_eq_ok (Prod.mk.inj done).1 fun _ => ?_
        obtain ⟨_, -, rest⟩ := exists_of_bind_eq_ok operands
        obtain ⟨_, -, rest⟩ := exists_of_bind_eq_ok rest
        -- the name comes last, after a second operand or none
        split at rest
        all_goals
          obtain ⟨_, -, rest⟩ := exists_of_bind_eq_ok rest
          split at rest
          · cases rest
          · cases rest
            rfl

theorem fst_of_textResult {s : Scene} {t : TextStep} {limits : Limits} {x : String × Datum}
    (done : s.textResult t limits = .ok x) : x.1 = s.variableName t.result := by
  unfold textResult at done
  cases kind : t.op with
  | none =>
      rw [kind] at done
      cases done
  | some op =>
      rw [kind] at done
      obtain ⟨_, -, rest⟩ := exists_of_bind_eq_ok done
      obtain ⟨_, -, rest⟩ := exists_of_bind_eq_ok rest
      dsimp only at rest
      split at rest
      · cases rest
      · exact (congrArg Prod.fst (Except.ok.inj rest)).symm

/-- Every name denotes the variable whose name it comes to. -/
theorem denotes_variableName (s : Scene) (w : String) : s.Denotes w (s.variableName w) where
  name := rfl
  changes _ _ _ _ same done := same ▸ fst_of_variableUpdate done
  calculates _ _ _ _ _ same done := same ▸ fst_of_calculation done
  writes _ _ _ same done := same ▸ fst_of_textResult done

theorem alike_of_eq {s : Scene} {w w' : String} (same : s.variableName w = s.variableName w') :
    s.Alike w w' := by
  refine ⟨fun v dice => ?_, fun m limit dice => ?_, fun t limits => ?_⟩
  · simp only [variableUpdate, same]
  · simp only [calculation, same]
  · simp only [textResult, same]

/-- A value stands for the variable that both its authored form and its own name come to. -/
theorem standsFor_of_eq {s : Scene} {v : Value} {n : String} (raw : s.variableName v.raw = n)
    (operand : s.variableOperand (some v) = .ok n) : s.StandsFor v n := by
  refine ⟨fun u dice copy source named => ?_, fun c dice check left => ?_, fun t dice kind name => ?_⟩
  · have filled : (s.variableName u.name).isEmpty = false := by simpa using named
    simp only [variableUpdate, copy, source, filled, raw]
    cases s.context.get? n <;> rfl
  · simp only [evaluate, check, answer, left, operand]
    rfl
  · simp only [findTarget, kind, name, raw]

/-- A text stands for the variable whose name it comes to. -/
theorem standsFor_text (s : Scene) (w : String) : s.StandsFor (.text w) (s.variableName w) :=
  standsFor_of_eq rfl rfl

/-- The authored form of a reference has the name in braces. -/
theorem raw_reference (named : isName name = true) (m : Option Marker) :
    (Value.reference (spelled name m)).raw = spelled name (some .brace) := by
  rw [Value.reference, stripMarkers_spelled named, Value.raw, ← String.toList_inj]
  simp [spelled, Piece.chars, Marker.opening, Marker.closing]

/-- **Which variable a name denotes.**  A reference is to the variable of the name, whichever way the name is
written, and so is a name that is written plainly or in braces, everywhere where the name of a variable is asked
for.

A name between percent signs is filled in: it denotes the variable whose name is the text of the role of this
name, or else of the variable of this name, and if there is neither, the variable whose name has the percent signs
in it.  So it is the name itself only if that text is. -/
theorem spelled_names (s : Scene) (named : isName name = true) :
    (∀ m, stripMarkers (spelled name m) = String.ofList name ∧
      s.StandsFor (.reference (spelled name m)) (String.ofList name) ∧
      s.Denotes (Value.reference (spelled name m)).raw (String.ofList name)) ∧
    (∀ m, m ≠ some .percent → s.Denotes (spelled name m) (String.ofList name) ∧
      s.StandsFor (.text (spelled name m)) (String.ofList name) ∧
      s.Alike (spelled name m) (String.ofList name)) ∧
    (∀ w, s.Denotes w (s.variableName w) ∧ s.StandsFor (.text w) (s.variableName w)) ∧
    s.variableName (spelled name (some .percent)) =
      Text.trim ((s.lookup .percent (String.ofList name)).getD (spelled name (some .percent))) ∧
    (s.variableName (spelled name (some .percent)) = String.ofList name ↔
      ∃ text, s.lookup .percent (String.ofList name) = some text ∧ Text.trim text = String.ofList name) := by
  have plain : s.variableName (String.ofList name) = String.ofList name :=
    @variableName_spelled name s named none nofun
  have braced : s.variableName (spelled name (some .brace)) = String.ofList name :=
    s.variableName_spelled named nofun
  refine ⟨fun m => ⟨stripMarkers_spelled named m, ?_, ?_⟩, fun m other => ?_,
    fun w => ⟨s.denotes_variableName w, s.standsFor_text w⟩, s.variableName_percent named, ?_⟩
  · refine standsFor_of_eq (raw_reference named m ▸ braced) ?_
    rw [Value.reference, stripMarkers_spelled named, variableOperand, plain]
  · have denotes := s.denotes_variableName (spelled name (some .brace))
    rw [braced] at denotes
    rwa [raw_reference named]
  · have same := s.variableName_spelled named other
    have denotes := s.denotes_variableName (spelled name m)
    have stands := s.standsFor_text (spelled name m)
    rw [same] at denotes stands
    exact ⟨denotes, stands, alike_of_eq (same.trans plain.symm)⟩
  · rw [s.variableName_percent named]
    cases s.lookup .percent (String.ofList name) with
    | none =>
        rw [Option.getD_none, Text.trim_eq_self_iff.mpr (isTrimmed_spelled named _)]
        exact ⟨fun same => absurd same (spelled_some_ne named .percent), nofun⟩
    | some text => simp

/-- A scene with a variable whose text is a digit. -/
def scoring : Scene :=
  { context := {
      frame := { actor := ⟨1⟩, target := .nobody, logLimit := 8, cancel := 0 }
      scope := { locals := ({} : Table String (Option Datum)).insert "score" (some (.text "5")) } }
    world := {} }

/-- In it the three ways to write the name do not denote the same variable. -/
theorem spelled_score : isName "score".toList = true ∧ scoring.variableName "score" = "score" ∧
    scoring.variableName "\x7bscore\x7d" = "score" ∧ scoring.variableName "%score%" = "5" ∧
    stripMarkers "%score%" = "score" := by
  have named : isName "score".toList = true := by decide
  obtain ⟨references, plain, -, percent, -⟩ := scoring.spelled_names named
  exact ⟨named, (plain none nofun).1.name, (plain (some .brace) nofun).1.name, percent,
    (references (some .percent)).1⟩

end Scene

end Blockwork
