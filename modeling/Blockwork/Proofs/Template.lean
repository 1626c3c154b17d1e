import Blockwork.Proofs.Scene
import Blockwork.Resolve
import Mathlib.Data.List.Infix
import Mathlib.Data.List.TakeWhile

/-!
# Templates are filled in once

A template falls apart into literal text and placeholders in one way only.  `Template.Cuts` says which: a
placeholder stands wherever one begins, from left to right and without overlap, and what is between two
placeholders is one literal.  Nothing in it mentions how a template is read or what a name is replaced by.
Filling a template in means filling in its pieces (`filled_once`), so text that comes from a variable, a role
or an event stands in the result as it is, whatever it looks like.

## What is load-bearing

* No marker is part of a name.  So a name ends where its closing marker is, a placeholder is determined by the
  text that it begins (`eq_of_opened`), and in an opening marker and a name that nothing closes no placeholder
  begins (`not_begins_unclosed`), which is why the scan need not look back.
* `Cuts.prepend`: literals that the scan emits one after another are one literal of the template.
-/

namespace Blockwork.Template

/-! ## Where placeholders begin -/

/-- A placeholder begins here. -/
def Begins (cs : List Char) : Prop :=
  ∃ m name rest, isName name = true ∧ cs = (Piece.placeholder m name).chars ++ rest

theorem marker?_eq_some_iff {c : Char} {m : Marker} : marker? c = some m ↔ c = m.opening := by
  unfold marker?
  cases m <;> simp only [Marker.opening] <;> split_ifs <;> simp_all

theorem Marker.opening_inj {m n : Marker} (same : m.opening = n.opening) : m = n :=
  Option.some.inj ((marker?_eq_some_iff.mpr same).symm.trans (marker?_eq_some_iff.mpr rfl)).symm

theorem isNameChar_opening (m : Marker) : isNameChar m.opening = false := by
  cases m <;> rfl

theorem isName_iff {name : List Char} :
    isName name = true ↔ name ≠ [] ∧ ∀ c ∈ name, isNameChar c = true := by
  simp [isName]

/-- A closing marker ends a name. -/
theorem ends_closing (m : Marker) (rest : List Char) :
    ∀ c ∈ (m.closing :: rest).head?, isNameChar c = false := by
  intro c first
  rw [← Option.some.inj first]
  cases m <;> rfl

/-- A run of name characters ends where something else starts. -/
theorem span_name {name rest : List Char} (chars : ∀ c ∈ name, isNameChar c = true)
    (ends : ∀ c ∈ rest.head?, isNameChar c = false) :
    (name ++ rest).takeWhile isNameChar = name ∧ (name ++ rest).dropWhile isNameChar = rest := by
  rw [List.takeWhile_append_of_pos chars, List.dropWhile_append_of_pos chars]
  cases rest with
  | nil => simp
  | cons c rest =>
      have other : ¬ isNameChar c = true := by simp [ends c rfl]
      simp [List.takeWhile_cons_of_neg other, List.dropWhile_cons_of_neg other]

/-- A placeholder is determined by the text that it begins. -/
theorem eq_of_opened {m n : Marker} {name name' rest rest' : List Char} (named : isName name = true)
    (chars : ∀ c ∈ name', isNameChar c = true) (ends : ∀ c ∈ rest'.head?, isNameChar c = false)
    (same : (Piece.placeholder m name).chars ++ rest = n.opening :: name' ++ rest') :
    m = n ∧ name = name' ∧ rest' = m.closing :: rest := by
  have parts : m.opening :: (name ++ m.closing :: rest) = n.opening :: (name' ++ rest') := by
    simpa [Piece.chars] using same
  obtain ⟨opening, body⟩ := List.cons.inj parts
  obtain ⟨front, back⟩ := span_name (isName_iff.mp named).2 (ends_closing m rest)
  obtain ⟨front', back'⟩ := span_name chars ends
  rw [body] at front back
  exact ⟨Marker.opening_inj opening, front.symm.trans front', back'.symm.trans back⟩

theorem begins_placeholder {m : Marker} {name : List Char} (named : isName name = true) (rest : List Char) :
    Begins ((Piece.placeholder m name).chars ++ rest) := ⟨m, name, rest, named, rfl⟩

theorem not_begins_of_marker? {c : Char} (plain : marker? c = none) (cs : List Char) : ¬ Begins (c :: cs) := by
  rintro ⟨m, name, rest, -, same⟩
  have opening : c = m.opening := (List.cons.inj same).1
  rw [marker?_eq_some_iff.mpr opening] at plain
  cases plain

/-- No marker is part of a name. -/
theorem marker?_of_isNameChar {c : Char} (letter : isNameChar c = true) : marker? c = none := by
  rw [Option.eq_none_iff_forall_ne_some]
  intro m opens
  rw [marker?_eq_some_iff.mp opens, isNameChar_opening] at letter
  cases letter

/-- No placeholder begins in a text without markers, whatever comes after it. -/
theorem not_begins_of_plain {l v : List Char} (plain : ∀ c ∈ l, marker? c = none) (nonempty : v ≠ [])
    (suffix : v <:+ l) (rest : List Char) : ¬ Begins (v ++ rest) := by
  obtain ⟨c, cs, rfl⟩ := List.exists_cons_of_ne_nil nonempty
  exact not_begins_of_marker? (plain c (suffix.subset (List.mem_cons_self ..))) (cs ++ rest)

/-- No placeholder begins in an opening marker and the name after it if nothing closes them. -/
theorem not_begins_unclosed {m : Marker} {name rest v : List Char}
    (chars : ∀ c ∈ name, isNameChar c = true) (ends : ∀ c ∈ rest.head?, isNameChar c = false)
    (unclosed : ∀ c ∈ rest.head?, name ≠ [] → c ≠ m.closing)
    (nonempty : v ≠ []) (suffix : v <:+ m.opening :: name) : ¬ Begins (v ++ rest) := by
  rcases List.suffix_cons_iff.mp suffix with rfl | inside
  · rintro ⟨n, name', rest', named, same⟩
    obtain ⟨rfl, rfl, rfl⟩ := eq_of_opened named chars ends same.symm
    exact unclosed _ rfl (isName_iff.mp named).1 rfl
  · exact not_begins_of_plain (fun c mem => marker?_of_isNameChar (chars c mem)) nonempty inside rest

/-! ## The pieces of a template -/

/-- The pieces of a text: a placeholder wherever one begins, and the text up to the next one in one literal. -/
inductive Cuts : List Char → List Piece → Prop where
  /-- Nothing has no pieces. -/
  | nil : Cuts [] []
  /-- A placeholder has a name. -/
  | placeholder {m : Marker} {name rest : List Char} {ps : List Piece} (named : isName name = true)
      (cut : Cuts rest ps) : Cuts ((Piece.placeholder m name).chars ++ rest) (.placeholder m name :: ps)
  /-- A literal is not empty, no placeholder begins in it, and it is not followed by another literal. -/
  | literal {l rest : List Char} {ps : List Piece} (nonempty : l ≠ [])
      (clear : ∀ v, v ≠ [] → v <:+ l → ¬ Begins (v ++ rest)) (ends : ∀ l', ps.head? ≠ some (.literal l'))
      (cut : Cuts rest ps) : Cuts (l ++ rest) (.literal l :: ps)

namespace Cuts

variable {cs : List Char} {ps : List Piece}

/-- The pieces one after another are the text. -/
theorem flatMap_chars (h : Cuts cs ps) : ps.flatMap Piece.chars = cs := by
  induction h with
  | nil => rfl
  | placeholder named cut ih => rw [List.flatMap_cons, ih]
  | literal nonempty clear ends cut ih => rw [List.flatMap_cons, ih, Piece.chars]

/-- What has pieces, the first of which is not a literal, begins with a placeholder. -/
theorem begins (h : Cuts cs ps) (nonempty : cs ≠ []) (ends : ∀ l, ps.head? ≠ some (.literal l)) : Begins cs := by
  cases h with
  | nil => exact absurd rfl nonempty
  | placeholder named cut => exact begins_placeholder named _
  | literal => exact absurd rfl (ends _)

/-- Of two literals at the same place neither goes on beyond the other. -/
theorem literal_le {l l' rest rest' more : List Char} (cut : Cuts rest ps)
    (ends : ∀ l, ps.head? ≠ some (.literal l)) (clear : ∀ v, v ≠ [] → v <:+ l' → ¬ Begins (v ++ rest'))
    (longer : l' = l ++ more) (same : rest = more ++ rest') : more = [] := by
  by_contra nonempty
  apply clear more nonempty ⟨l, longer.symm⟩
  rw [← same]
  exact cut.begins (by simp [same, nonempty]) ends

/-- **A text has its pieces in one way only.** -/
theorem unique (h : Cuts cs ps) {qs : List Piece} (h' : Cuts cs qs) : ps = qs := by
  generalize same : cs = cs' at h'
  induction h generalizing cs' qs with
  | nil =>
      cases h' with
      | nil => rfl
      | placeholder => cases same
      | literal nonempty => exact absurd (List.append_eq_nil_iff.mp same.symm).1 nonempty
  | @placeholder m name rest ps named cut ih =>
      cases h' with
      | nil => cases same
      | @placeholder n name' rest' qs named' cut' =>
          obtain ⟨rfl, rfl, after⟩ := eq_of_opened (n := n) named (isName_iff.mp named').2
            (ends_closing n rest') (same.trans (by simp [Piece.chars]))
          rw [ih _ (List.cons.inj after).2.symm cut']
      | literal nonempty clear =>
          exact absurd (same ▸ begins_placeholder named rest) (clear _ nonempty (List.suffix_refl _))
  | @literal l rest ps nonempty clear ends cut ih =>
      cases h' with
      | nil => exact absurd (List.append_eq_nil_iff.mp same).1 nonempty
      | placeholder named =>
          exact absurd (same ▸ begins_placeholder named _) (clear _ nonempty (List.suffix_refl _))
      | literal nonempty' clear' ends' cut' =>
          rcases List.append_eq_append_iff.mp same with ⟨more, longer, after⟩ | ⟨more, longer, after⟩
          · obtain rfl := literal_le cut ends clear' longer after
            rw [longer, List.append_nil, ih _ after cut']
          · obtain rfl := literal_le cut' ends' clear longer after
            rw [longer, List.append_nil, ih _ after.symm cut']

/-- Text in which no placeholder begins becomes part of a literal. -/
theorem prepend (h : Cuts cs ps) {l : List Char} (clear : ∀ v, v ≠ [] → v <:+ l → ¬ Begins (v ++ cs)) :
    ∃ qs, Cuts (l ++ cs) qs ∧
      ∀ lookup, qs.flatMap (Piece.fill lookup) = l ++ ps.flatMap (Piece.fill lookup) := by
  by_cases nonempty : l = []
  · exact ⟨ps, by simpa [nonempty] using h, by simp [nonempty]⟩
  by_cases ends : ∀ l', ps.head? ≠ some (.literal l')
  · exact ⟨_, .literal nonempty clear ends h, fun _ => rfl⟩
  · simp only [ne_eq, not_forall, not_not] at ends
    obtain ⟨l', first⟩ := ends
    cases h with
    | nil => cases first
    | placeholder => cases first
    | @literal l'' rest ps nonempty' clear' ends' cut =>
        refine ⟨.literal (l ++ l'') :: ps, ?_, fun _ => ?_⟩
        · rw [← List.append_assoc]
          refine .literal (by simp [nonempty]) ?_ ends' cut
          -- the end of the longer literal starts in one of the two
          intro v left suffix
          rcases List.suffix_or_suffix_of_suffix suffix (List.suffix_append l l'') with inside | ⟨u, rfl⟩
          · exact clear' v left inside
          · by_cases nothing : u = []
            · subst nothing
              exact clear' _ nonempty' (List.suffix_refl _)
            · rw [List.append_assoc]
              exact clear u nothing (List.suffix_append_self_iff.mp suffix)
        · simp [Piece.fill]

end Cuts

/-! ## The scan -/

/-- What the scan has read and not yet emitted. -/
def held : Option (Marker × List Char) → List Char
  | none => []
  | some (m, name) => m.opening :: name.reverse

/-- Emitted pieces are filled in like the pieces of a text. -/
def FillsAs (emitted : List Piece) (cs : List Char) : Prop :=
  ∃ ps, Cuts cs ps ∧ ∀ lookup, emitted.flatMap (Piece.fill lookup) = ps.flatMap (Piece.fill lookup)

theorem FillsAs.literal {emitted : List Piece} {cs l : List Char} (h : FillsAs emitted cs)
    (clear : ∀ v, v ≠ [] → v <:+ l → ¬ Begins (v ++ cs)) : FillsAs (.literal l :: emitted) (l ++ cs) := by
  obtain ⟨ps, cut, same⟩ := h
  obtain ⟨qs, cut', filled⟩ := cut.prepend clear
  refine ⟨qs, cut', ?_⟩
  intro lookup
  rw [filled, List.flatMap_cons, same, Piece.fill]

/-- The scan of what is held and what is still to be read.  The induction is on the latter. -/
theorem fillsAs_piecesFrom (cs : List Char) (o : Option (Marker × List Char))
    (chars : ∀ m name, o = some (m, name) → ∀ c ∈ name, isNameChar c = true) :
    FillsAs (piecesFrom o cs) (held o ++ cs) := by
  induction cs generalizing o with
  | nil =>
      cases o with
      | none => exact ⟨[], .nil, fun _ => rfl⟩
      | some entry =>
          obtain ⟨m, name⟩ := entry
          have letters : ∀ c ∈ name.reverse, isNameChar c = true := by simpa using chars m name rfl
          exact FillsAs.literal ⟨[], .nil, fun _ => rfl⟩ fun v left suffix =>
            not_begins_unclosed letters (by simp) (by simp) left suffix
  | cons c cs ih =>
      -- where nothing is held, a marker opens a name and any other character is a literal
      have restart : FillsAs (piecesFrom none (c :: cs)) (c :: cs) := by
        rw [piecesFrom]
        cases kind : marker? c with
        | some m =>
            rw [marker?_eq_some_iff.mp kind]
            exact ih (some (m, [])) (by simp)
        | none =>
            refine FillsAs.literal (l := [c]) (ih none (by simp)) fun v left suffix => ?_
            obtain rfl : v = [c] := by simpa [List.suffix_cons_iff, left] using suffix
            exact not_begins_of_marker? kind cs
      cases o with
      | none => exact restart
      | some entry =>
          obtain ⟨m, name⟩ := entry
          have letters : ∀ c ∈ name.reverse, isNameChar c = true := by simpa using chars m name rfl
          rw [piecesFrom]
          split_ifs with letter closes
          · have longer : held (some (m, c :: name)) ++ cs = held (some (m, name)) ++ c :: cs := by
              simp [held]
            rw [← longer]
            apply ih
            rintro _ _ ⟨⟩ d mem
            rcases List.mem_cons.mp mem with rfl | mem
            · exact letter
            · exact chars m name rfl d mem
          · obtain ⟨rfl, named⟩ : c = m.closing ∧ name ≠ [] := by simpa using closes
            obtain ⟨ps, cut, same⟩ := ih none (by simp)
            refine ⟨.placeholder m name.reverse :: ps, ?_, ?_⟩
            · have whole : held (some (m, name)) ++ m.closing :: cs =
                  (Piece.placeholder m name.reverse).chars ++ cs := by simp [held, Piece.chars]
              rw [whole]
              exact .placeholder (isName_iff.mpr ⟨by simpa using named, letters⟩) cut
            · intro lookup
              rw [List.flatMap_cons, List.flatMap_cons, same]
          · refine FillsAs.literal restart fun v left suffix => ?_
            refine not_begins_unclosed letters ?_ ?_ left suffix
            · rintro _ ⟨⟩
              simpa using letter
            · rintro _ ⟨⟩ named rfl
              exact closes (by simpa using named)

/-! ## Filling in -/

/-- Pieces are filled in by what is looked up for their own names. -/
theorem flatMap_fill_congr {lookup lookup' : Marker → String → Option String} {ps : List Piece}
    (agree : ∀ m name, .placeholder m name ∈ ps →
      lookup m (String.ofList name) = lookup' m (String.ofList name)) :
    ps.flatMap (Piece.fill lookup) = ps.flatMap (Piece.fill lookup') := by
  apply List.flatMap_congr
  intro p mem
  cases p with
  | literal l => rfl
  | placeholder m name => rw [Piece.fill, Piece.fill, agree m name mem]

/-- However a template is filled in, it is by its pieces. -/
theorem toList_fill {cs : List Char} {ps : List Piece} (cut : Cuts cs ps)
    (lookup : Marker → String → Option String) :
    (fill lookup (String.ofList cs)).toList = ps.flatMap (Piece.fill lookup) := by
  obtain ⟨qs, cut', same⟩ := fillsAs_piecesFrom cs none (by simp)
  rw [fill, String.toList_ofList, String.toList_ofList, pieces, same, cut'.unique cut]

/-- A text without markers stands for itself. -/
theorem fill_plain {cs : List Char} (plain : ∀ c ∈ cs, marker? c = none)
    (lookup : Marker → String → Option String) : fill lookup (String.ofList cs) = String.ofList cs := by
  obtain ⟨ps, cut, filled⟩ := Cuts.nil.prepend fun _ left suffix => not_begins_of_plain plain left suffix []
  rw [List.append_nil] at cut
  rw [← String.toList_inj, toList_fill cut, filled, String.toList_ofList]
  simp

/-- Around a placeholder, too, a text without markers stands for itself. -/
theorem toList_fill_lone {m : Marker} {before name after : List Char} (named : isName name = true)
    (plain : ∀ c ∈ before, marker? c = none) (plain' : ∀ c ∈ after, marker? c = none)
    (lookup : Marker → String → Option String) :
    (fill lookup (String.ofList (before ++ (Piece.placeholder m name).chars ++ after))).toList =
      before ++ Piece.fill lookup (.placeholder m name) ++ after := by
  obtain ⟨ps, cut, filled⟩ := Cuts.nil.prepend fun _ left suffix => not_begins_of_plain plain' left suffix []
  rw [List.append_nil] at cut
  obtain ⟨qs, cut', filled'⟩ := (Cuts.placeholder (m := m) named cut).prepend fun _ left suffix =>
    not_begins_of_plain plain left suffix _
  rw [List.append_assoc, toList_fill cut', filled', List.flatMap_cons, filled]
  simp

theorem fill_unknown : Piece.fill (fun _ _ => none) = Piece.chars := by
  ext p : 1
  cases p <;> rfl

/-- **A template is filled in piece by piece.**  Its pieces are settled before anything is looked up; what is
found for a placeholder stands in the result as it is, and a template none of whose names is known is its own
result.  Nobody can tell contexts apart that agree on the names of the placeholders. -/
theorem filled_once (template : String) : ∃ ps,
    (Cuts template.toList ps ∧ ∀ qs, Cuts template.toList qs → qs = ps) ∧
    ps.flatMap Piece.chars = template.toList ∧
    (∀ lookup, fill lookup template = String.ofList (ps.flatMap (Piece.fill lookup))) ∧
    (∀ lookup, (∀ m name, .placeholder m name ∈ ps → lookup m (String.ofList name) = none) →
      fill lookup template = template) ∧
    (∀ lookup before m name after text, ps = before ++ .placeholder m name :: after →
      lookup m (String.ofList name) = some text → (fill lookup template).toList =
        before.flatMap (Piece.fill lookup) ++ text.toList ++ after.flatMap (Piece.fill lookup)) ∧
    ∀ (w : World) (c c' : Context),
      (∀ name, .placeholder .brace name ∈ ps → c.get? (String.ofList name) = c'.get? (String.ofList name)) →
      (∀ name, .placeholder .percent name ∈ ps →
        c.role? (String.ofList name) = c'.role? (String.ofList name) ∧
        (c.role? (String.ofList name) = none →
          c.get? (String.ofList name) = c'.get? (String.ofList name))) →
      Scene.substitute ⟨c, w⟩ template = Scene.substitute ⟨c', w⟩ template := by
  obtain ⟨ps, cut, same⟩ := fillsAs_piecesFrom template.toList none (by simp)
  have filled (lookup : Marker → String → Option String) :
      fill lookup template = String.ofList (ps.flatMap (Piece.fill lookup)) := congrArg _ (same lookup)
  refine ⟨ps, ⟨cut, fun qs cut' => cut'.unique cut⟩, cut.flatMap_chars, filled, ?_, ?_, ?_⟩
  · intro lookup unknown
    have nothing := @flatMap_fill_congr lookup (fun _ _ => none) ps unknown
    rw [filled, nothing, fill_unknown, cut.flatMap_chars]
    exact String.ofList_toList
  · rintro lookup before m name after text rfl found
    have shown : Piece.fill lookup (.placeholder m name) = text.toList := by
      rw [Piece.fill, found]
    rw [filled, String.toList_ofList, List.flatMap_append, List.flatMap_cons, shown, List.append_assoc]
  · intro w c c' braces percents
    show fill (Scene.lookup ⟨c, w⟩) template = fill (Scene.lookup ⟨c', w⟩) template
    have displayed : Scene.display ⟨c, w⟩ = Scene.display ⟨c', w⟩ :=
      funext (Scene.display_eq_of_world rfl)
    rw [filled, filled]
    congr 1
    apply flatMap_fill_congr
    intro m name mem
    cases m with
    | brace =>
        show (c.get? (String.ofList name)).map _ = (c'.get? (String.ofList name)).map _
        rw [braces name mem, displayed]
    | percent =>
        obtain ⟨roles, below⟩ := percents name mem
        show (c.role? _).orElse (fun _ => (c.get? _).map _) = (c'.role? _).orElse fun _ => (c'.get? _).map _
        rw [← roles, displayed]
        -- the variable is only asked for where there is no role
        cases bound : c.role? (String.ofList name) with
        | some role => rfl
        | none => rw [below bound]

end Blockwork.Template
