import Blockwork.Proofs.Names

/-!
# Texts that are a variable

A text that is nothing but the name of a variable in braces does not become text: it has the value of the
variable, with its type.  To a message, to work on text and to a search in a text (`Scene.Shows`) this makes no
difference, since they have the text that the value is shown with, and this is what filling in the braces gives
(`Scene.display_resolve`).

There are two exceptions.  Blanks around the braces would be part of a text, and they are no part of a value.
And a comparison takes an actor by identity, where a text has the actor's name.

## What is load-bearing

* `Scene.IsLone`: what the shortcut is taken for, by the characters of the text.
* `Template.toList_fill_lone`: text without markers around a placeholder stands for itself.  Blanks are no
  markers.
-/

namespace Blockwork

open Template

namespace Scene

/-! ## Lone variables -/

/-- A text is the name of a variable that has a value, in braces, between blanks. -/
structure IsLone (s : Scene) (raw : String) (before after : List Char) (d : Datum) : Prop where
  /-- The braces have blanks around them. -/
  text : ∃ name, isName name = true ∧ raw.toList = before ++ (Piece.placeholder .brace name).chars ++ after ∧
    s.context.get? (String.ofList name) = some d
  /-- What is before is blank. -/
  before : ∀ c ∈ before, Text.isBlank c = true
  /-- What is after is blank. -/
  after : ∀ c ∈ after, Text.isBlank c = true

variable {s : Scene} {raw : String} {before after : List Char} {d : Datum}

/-- What is in braces is a name. -/
theorem exists_of_bracedName? {cs : List Char} {n : String} (braced : bracedName? cs = some n) :
    ∃ name, isName name = true ∧ cs = (Piece.placeholder .brace name).chars ∧ n = String.ofList name := by
  unfold bracedName? at braced
  split at braced
  · next inner wrapped =>
    split at braced
    · next named =>
      cases braced
      exact ⟨inner, named, Text.unwrapChars_eq_some_iff.mp wrapped, rfl⟩
    · cases braced
  · cases braced

/-- The shortcut is taken for lone variables. -/
theorem wholeVariable?_eq_some_iff :
    s.wholeVariable? raw = some d ↔ ∃ before after, s.IsLone raw before after d := by
  rw [wholeVariable?, Option.bind_eq_some_iff]
  constructor
  · rintro ⟨n, braced, value⟩
    obtain ⟨before, after, text, blank, blank'⟩ := Text.exists_eq_trimChars raw.toList
    obtain ⟨name, named, inside, rfl⟩ := exists_of_bracedName? braced
    exact ⟨before, after, ⟨name, named, inside ▸ text, value⟩, blank, blank'⟩
  · rintro ⟨before, after, ⟨name, named, text, value⟩, blank, blank'⟩
    have trimmed := isTrimmed_spelled named (some .brace)
    have braced := bracedName?_spelled named (some .brace)
    rw [spelled, String.toList_ofList] at trimmed braced
    rw [text, Text.trimChars_append blank trimmed blank', braced, if_pos rfl]
    exact ⟨_, rfl, value⟩

/-- No blank is a marker. -/
theorem marker?_of_isBlank {c : Char} (blank : Text.isBlank c = true) : marker? c = none := by
  rw [Option.eq_none_iff_forall_ne_some]
  intro m opens
  rw [marker?_eq_some_iff.mp opens] at blank
  cases m <;> cases blank

/-- Filling in a lone variable keeps the blanks. -/
theorem IsLone.substitute (h : s.IsLone raw before after d) :
    (s.substitute raw).toList = before ++ (s.display d).toList ++ after := by
  obtain ⟨⟨name, named, text, value⟩, blank, blank'⟩ := h
  have found : s.lookup .brace (String.ofList name) = some (s.display d) := by
    rw [lookup, value]
    rfl
  have filled := toList_fill_lone (m := .brace) named (fun c mem => marker?_of_isBlank (blank c mem))
    (fun c mem => marker?_of_isBlank (blank' c mem)) s.lookup
  rw [← text, String.ofList_toList, Piece.fill, found] at filled
  exact filled

/-! ## Who sees the text -/

theorem display_text (s : Scene) (t : String) : s.display (.text t) = t := by
  simp only [display, Datum.asText]

/-- A value is a text for everything that looks at its text. -/
structure Shows (s : Scene) (v : Value) (shown : String) : Prop where
  /-- A message says it. -/
  message : s.messageTo (some v) = (s.onlineActors (.onlineTarget "message")).map (shown, ·)
  /-- It is what is worked on. -/
  input : ∀ (t : TextStep) op limits, t.op = some op → t.input = some v → s.variableName t.result ≠ "" →
    s.textResult t limits = .ok (s.variableName t.result,
      op.apply shown (s.display (s.resolveOptional t.argument))
        (s.display (s.resolveOptional t.replacement)) limits)
  /-- It is what the work is done with. -/
  argument : s.display (s.resolveOptional (some v)) = shown
  /-- It is searched. -/
  contains : ∀ (c : Condition) w dice, c.check = some .contains → c.left = some v → c.right = some w →
    s.evaluate c dice =
      (.ok (Text.contains (Text.lower shown) (Text.lower (s.display (s.resolve w))) != c.invert), dice)
  /-- It is what is searched for. -/
  contained : ∀ (c : Condition) w dice, c.check = some .contains → c.left = some w → c.right = some v →
    s.evaluate c dice =
      (.ok (Text.contains (Text.lower (s.display (s.resolve w))) (Text.lower shown) != c.invert), dice)
  /-- What it begins with is asked. -/
  starts : ∀ (c : Condition) w dice, c.check = some .startsWith → c.left = some v → c.right = some w →
    s.evaluate c dice =
      (.ok (Text.startsWith (Text.lower shown) (Text.lower (s.display (s.resolve w))) != c.invert), dice)
  /-- Whether something begins with it is asked. -/
  begun : ∀ (c : Condition) w dice, c.check = some .startsWith → c.left = some w → c.right = some v →
    s.evaluate c dice =
      (.ok (Text.startsWith (Text.lower (s.display (s.resolve w))) (Text.lower shown) != c.invert), dice)

/-- The text of a value is the one that it is shown with. -/
theorem shows_display (s : Scene) (v : Value) : s.Shows v (s.display (s.resolve v)) where
  message := by
    show (s.onlineActors _ >>= fun actors => pure (s.display (s.resolve v), actors)) = _
    cases s.onlineActors (.onlineTarget "message") <;> rfl
  input t op limits kind source named := by
    have filled : (s.variableName t.result).isEmpty = false := by simpa using named
    simp only [textResult, kind, source, filled]
    rfl
  argument := rfl
  contains c w dice check left right := by
    simp only [evaluate, check, answer, left, right]
    rfl
  contained c w dice check left right := by
    simp only [evaluate, check, answer, left, right]
    rfl
  starts c w dice check left right := by
    simp only [evaluate, check, answer, left, right]
    rfl
  begun c w dice check left right := by
    simp only [evaluate, check, answer, left, right]
    rfl

mutual

/-- Whether an actor in a value is online. -/
def meets (s : Scene) : Datum → Bool
  | .actor id => (s.world.actor? id).isSome
  | .list items => meetsAny s items
  | _ => false

/-- Whether an actor in one of several values is online. -/
def meetsAny (s : Scene) : List Datum → Bool
  | [] => false
  | d :: rest => meets s d || meetsAny s rest

end

mutual

/-- Comparisons have the text that is shown, unless actors who are online are in it. -/
theorem asText_eq_display : ∀ {d : Datum}, s.meets d = false → d.asText = s.display d
  | .actor id, away => by
      rw [meets, Option.isSome_eq_false_iff, Option.isNone_iff_eq_none] at away
      rw [display, away]
      rfl
  | .list items, away => by
      rw [meets] at away
      rw [display, Datum.asText, asTexts_eq_displayAll away]
  | .nothing, _ | .boolean _, _ | .number _, _ | .text _, _ | .entity _, _ | .location _, _ | .item _, _
  | .sound _, _ | .particle _, _ | .potion _, _ => by rw [display] <;> nofun

theorem asTexts_eq_displayAll : ∀ {items : List Datum}, s.meetsAny items = false →
    Datum.asTexts items = s.displayAll items
  | [], _ => by rw [displayAll, Datum.asTexts]
  | d :: rest, away => by
      rw [meetsAny, Bool.or_eq_false_iff] at away
      rw [displayAll, Datum.asTexts, asText_eq_display away.1, asTexts_eq_displayAll away.2]

end

/-- **A text that is a variable shows what would be filled in.**  A text that is nothing but the name of a variable
with a value, in braces, has this value, and is shown as the value is; any other text is filled in.  Filling it in
gives the same text but for the blanks around the braces, so the two ways differ exactly if there are any.

A comparison has this text, too, if it takes the value as text, unless actors who are online are in it. -/
theorem display_resolve (s : Scene) (raw : String) :
    (∀ before after d, s.IsLone raw before after d →
      s.resolve (.text raw) = d ∧ s.Shows (.text raw) (s.display d) ∧
      (s.substitute raw).toList = before ++ (s.display d).toList ++ after ∧
      (s.meets d = false → d.asText = s.display d)) ∧
    ((∀ before after d, ¬ s.IsLone raw before after d) →
      s.resolve (.text raw) = .text (s.substitute raw) ∧ s.Shows (.text raw) (s.substitute raw)) ∧
    (s.display (s.resolve (.text raw)) = s.substitute raw ↔
      ∀ before after d, s.IsLone raw before after d → before = [] ∧ after = []) := by
  have whole {before after : List Char} {d : Datum} (lone : s.IsLone raw before after d) :
      s.resolve (.text raw) = d := by
    rw [resolve, wholeVariable?_eq_some_iff.mpr ⟨before, after, lone⟩]
  have other (mixed : ∀ before after d, ¬ s.IsLone raw before after d) :
      s.resolve (.text raw) = .text (s.substitute raw) := by
    have none : s.wholeVariable? raw = none := by
      rw [Option.eq_none_iff_forall_ne_some]
      intro d found
      obtain ⟨before, after, lone⟩ := wholeVariable?_eq_some_iff.mp found
      exact mixed before after d lone
    rw [resolve, none]
  refine ⟨fun before after d lone => ⟨whole lone, ?_, lone.substitute, asText_eq_display⟩,
    fun mixed => ⟨other mixed, ?_⟩, ?_, fun tight => ?_⟩
  · have shows := s.shows_display (.text raw)
    rwa [whole lone] at shows
  · have shows := s.shows_display (.text raw)
    rwa [other mixed, display_text] at shows
  · intro same before after d lone
    rw [whole lone, ← String.toList_inj, lone.substitute] at same
    have sizes := congrArg List.length same
    simp only [List.length_append] at sizes
    exact ⟨List.length_eq_zero_iff.mp (by omega), List.length_eq_zero_iff.mp (by omega)⟩
  · by_cases lone : ∃ before after d, s.IsLone raw before after d
    · obtain ⟨before, after, d, lone⟩ := lone
      obtain ⟨rfl, rfl⟩ := tight before after d lone
      rw [whole lone, ← String.toList_inj, lone.substitute, List.nil_append, List.append_nil]
    · rw [other fun before after d found => lone ⟨before, after, d, found⟩, display_text]

/-- A scene with a purse, and with somebody who is online. -/
def purse : Scene :=
  { context := {
      frame := { actor := ⟨1⟩, target := .actor ⟨1⟩, logLimit := 8, cancel := 0 }
      scope := {
        locals := (({} : Table String (Option Datum)).insert "coins" (some (.text "12"))).insert "who"
          (some (.actor ⟨1⟩)) } }
    world := ({} : World).insertActor { id := ⟨1⟩, name := "ada", location := {} } }

/-- Blanks around a lone variable are lost, and a comparison does not find the actor by name. -/
theorem purse_not_substituted :
    purse.display (purse.resolve (.text " \x7bcoins\x7d ")) = "12" ∧
    purse.substitute " \x7bcoins\x7d " = " 12 " ∧
    purse.substitute "\x7bwho\x7d" = "ada" ∧
    (∀ dice, (purse.evaluate (.compare .equals (.text "\x7bwho\x7d") (.text "ada")) dice).1 = .ok false) ∧
    ∀ dice, (purse.evaluate (.compare .equals (.text "ada") (.text "ada")) dice).1 = .ok true := by
  refine ⟨by decide, by decide, by decide, fun dice => ?_, fun dice => ?_⟩
  · rfl
  · rfl

end Scene

end Blockwork
