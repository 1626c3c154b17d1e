import Blockwork.Operation.Arguments
import Blockwork.Proofs.Text

/-!
# Argument lists are read as they were written

An argument is written in quotes or as it is, with blanks around it, and arguments are joined with commas
(`Argument.written`).  Reading such a line gives the arguments that were written (`split_written`), whatever is
in quotes.  Only the line that has nothing but blanks in it is read as no argument, and there is one list that
is written so.

## What is load-bearing

* `Draft.step` reads a character at a time, so what it does to a whole argument is a fold (`splitFrom_append`).
  Each argument starts from the empty draft and leaves one at which a comma ends it (`exists_draft`): no quote
  is open, and no brace.
* A quote opens only where nothing but blanks has been read.  An argument as it is does not start with a quote
  and has no blank in front, so after its first character no quote opens any more (`foldlM_isGrouped`).
-/

namespace Blockwork.Argument

open Text (IsTrimmed isBlank isBlankText)

/-! ## Writing -/

/-- Whether a character is one of the two quotes. -/
def isQuoteMark (c : Char) : Bool := c = '"' || c = '\''

/-- Whether every brace that is opened is closed again, and no comma is outside braces, where `depth`
braces are open before. -/
def isGrouped (depth : Nat) : List Char → Bool
  | [] => depth = 0
  | c :: cs =>
    if c = '\x7b' then isGrouped (depth + 1) cs
    else if c = '\x7d' then isGrouped (depth - 1) cs
    else (c ≠ ',' || depth ≠ 0) && isGrouped depth cs

/-- An argument and how it is written. -/
inductive Spelling where
  /-- Between two quotes of a kind that is not in it. -/
  | quoted (mark : Char) (s : String) (isMark : isQuoteMark mark = true) (absent : mark ∉ s.toList)
  /-- As it is. -/
  | bare (s : String) (trimmed : IsTrimmed s.toList) (start : ∀ c ∈ s.toList.head?, isQuoteMark c = false)
      (grouped : isGrouped 0 s.toList = true)

/-- The argument that is written. -/
def Spelling.argument : Spelling → Argument
  | .quoted _ s _ _ => .quoted s
  | .bare s _ _ _ => .bare s

/-- The text that it is written as. -/
def Spelling.text : Spelling → String
  | .quoted mark s _ _ => String.ofList (mark :: s.toList ++ [mark])
  | .bare s _ _ _ => s

/-- What is written between two commas: an argument with blanks around it. -/
structure Slot where
  /-- The blanks in front. -/
  before : String
  /-- The argument. -/
  spelling : Spelling
  /-- The blanks behind. -/
  after : String
  /-- There are only blanks in front. -/
  blank_before : isBlankText before = true
  /-- There are only blanks behind. -/
  blank_after : isBlankText after = true

/-- The text between the commas. -/
def Slot.text (s : Slot) : String := s.before ++ s.spelling.text ++ s.after

/-- The argument. -/
def Slot.argument (s : Slot) : Argument := s.spelling.argument

/-- The line that arguments are written in. -/
def written (slots : List Slot) : String := Text.join "," (slots.map Slot.text)

/-! ## Reading one argument -/

theorem isBlankText_iff {s : String} : isBlankText s = true ↔ ∀ c ∈ s.toList, isBlank c = true := by
  rw [isBlankText, List.all_eq_true]

/-- No blank means anything else. -/
theorem plain_of_isBlank {c : Char} (blank : isBlank c = true) :
    isQuoteMark c = false ∧ c ≠ '\x7b' ∧ c ≠ '\x7d' ∧ c ≠ ',' := by
  refine ⟨?_, ?_, ?_, ?_⟩
  · rw [← Bool.not_eq_true]
    intro mark
    rcases (by simpa [isQuoteMark] using mark : c = '"' ∨ c = '\'') with rfl | rfl <;> cases blank
  all_goals
    rintro rfl
    cases blank

/-- An argument that is read to its end without a comma is read first. -/
theorem splitFrom_append {d d' : Draft} {cs : List Char} (read : cs.foldlM Draft.step d = some d')
    (rest : List Char) : splitFrom d (cs ++ rest) = splitFrom d' rest := by
  induction cs generalizing d with
  | nil =>
      cases read
      rfl
  | cons c cs ih =>
      rw [List.foldlM_cons] at read
      cases next : d.step c with
      | none =>
          rw [next] at read
          cases read
      | some more =>
          rw [next] at read
          rw [List.cons_append, splitFrom, next]
          exact ih read

namespace Draft

/-- What a character does to an argument in which no quote is open. -/
theorem step_of_quote {d : Draft} (shut : d.quote = none) {c : Char}
    (calm : isQuoteMark c = true → d.chars.all isBlank = false) : d.step c =
      if c = '\x7b' then some { d.push c with depth := d.depth + 1 }
      else if c = '\x7d' then some { d.push c with depth := d.depth - 1 }
      else if c = ',' && d.depth = 0 then none
      else some (if d.isQuoted && isBlank c then d else d.push c) := by
  have opens : ¬ ((c = '"' || c = '\'') && d.chars.all isBlank) = true := by
    rw [Bool.and_eq_true, not_and, Bool.not_eq_true]
    exact calm
  simp only [step, shut, if_neg opens]

theorem foldlM_cons {d d' d'' : Draft} {c : Char} {cs : List Char} (first : d.step c = some d')
    (rest : cs.foldlM step d' = some d'') : (c :: cs).foldlM step d = some d'' := by
  rw [List.foldlM_cons, first]
  exact rest

theorem foldlM_append {d d' d'' : Draft} {cs ds : List Char} (first : cs.foldlM step d = some d')
    (rest : ds.foldlM step d' = some d'') : (cs ++ ds).foldlM step d = some d'' := by
  rw [List.foldlM_append, first]
  exact rest

/-- Blanks in front of an argument are kept for the time being. -/
theorem foldlM_before {bs : List Char} (blank : ∀ b ∈ bs, isBlank b = true) (chars : List Char) :
    bs.foldlM step { chars } = some { chars := bs.reverse ++ chars } := by
  induction bs generalizing chars with
  | nil => rfl
  | cons b bs ih =>
      obtain ⟨mark, opening, closing, comma⟩ := plain_of_isBlank (blank b (List.mem_cons_self ..))
      have first : step { chars } b = some { chars := b :: chars } := by
        rw [step_of_quote rfl (by simp [mark])]
        simp [opening, closing, comma, push]
      have rest := ih (fun c mem => blank c (List.mem_cons_of_mem _ mem)) (b :: chars)
      rw [foldlM_cons first rest, List.reverse_cons, List.append_assoc]
      rfl

/-- Blanks behind a quoted argument are dropped. -/
theorem foldlM_after {bs : List Char} (blank : ∀ b ∈ bs, isBlank b = true) {d : Draft}
    (shut : d.quote = none) (quoted : d.isQuoted = true) : bs.foldlM step d = some d := by
  induction bs with
  | nil => rfl
  | cons b bs ih =>
      have isBlank := blank b (List.mem_cons_self ..)
      obtain ⟨mark, opening, closing, comma⟩ := plain_of_isBlank isBlank
      have first : d.step b = some d := by
        rw [step_of_quote shut (by simp [mark])]
        simp [opening, closing, comma, quoted, isBlank]
      exact foldlM_cons first (ih fun c mem => blank c (List.mem_cons_of_mem _ mem))

/-- Between quotes every other character stands for itself. -/
theorem foldlM_quoted {q : Char} {cs : List Char} (absent : q ∉ cs) {d : Draft} (inside : d.quote = some q) :
    cs.foldlM step d = some { d with chars := cs.reverse ++ d.chars } := by
  induction cs generalizing d with
  | nil => rfl
  | cons c cs ih =>
      rw [List.mem_cons, not_or] at absent
      have first : d.step c = some (d.push c) := by
        simp [step, inside, Ne.symm absent.1]
      rw [foldlM_cons first (ih absent.2 inside), List.reverse_cons, List.append_assoc]
      rfl

/-- Outside quotes groups are read to their end.  The induction is on the text; a quote opens nothing in
it, since the first character that is read is neither a quote nor a blank. -/
theorem foldlM_isGrouped {cs chars : List Char} {depth : Nat} (grouped : isGrouped depth cs = true)
    (start : chars.all isBlank = true → ∀ c ∈ cs.head?, isQuoteMark c = false ∧ isBlank c = false) :
    cs.foldlM step { chars, depth } = some { chars := cs.reverse ++ chars } := by
  induction cs generalizing chars depth with
  | nil =>
      obtain rfl : depth = 0 := by simpa [isGrouped] using grouped
      rfl
  | cons c cs ih =>
      have calm : isQuoteMark c = true → chars.all isBlank = false := by
        intro mark
        rw [← Bool.not_eq_true]
        intro blank
        rw [(start blank c rfl).1] at mark
        cases mark
      have begun : (c :: chars).all isBlank = true →
          ∀ d ∈ cs.head?, isQuoteMark d = false ∧ isBlank d = false := by
        intro blank
        rw [List.all_cons, Bool.and_eq_true] at blank
        rw [(start blank.2 c rfl).2] at blank
        cases blank.1
      have whole : (c :: cs).reverse ++ chars = cs.reverse ++ c :: chars := by simp
      rw [List.foldlM_cons, step_of_quote rfl calm, whole]
      rw [isGrouped] at grouped
      split_ifs at grouped ⊢ with opening closing ends quoted
      · exact ih grouped begun
      · exact ih grouped begun
      · simp_all
      · cases quoted
      · rw [Bool.and_eq_true] at grouped
        exact ih grouped.2 begun

end Draft

/-- **An argument is read from the empty draft**, up to a comma that ends it. -/
theorem exists_draft (s : Slot) : ∃ d, s.text.toList.foldlM Draft.step {} = some d ∧
    d.finish = s.argument ∧ d.step ',' = none := by
  obtain ⟨before, spelling, after, blank_before, blank_after⟩ := s
  rw [isBlankText_iff] at blank_before blank_after
  have front := Draft.foldlM_before blank_before []
  rw [List.append_nil] at front
  cases spelling with
  | quoted mark s isMark absent =>
      have opened : Draft.step { chars := before.toList.reverse } mark =
          some { quote := some mark, isQuoted := true } := by
        have blank : before.toList.reverse.all isBlank = true := by simpa using blank_before
        have first : (decide (mark = '"') || decide (mark = '\'')) = true := isMark
        simp only [Draft.step, first, blank, Bool.and_self, if_true]
      have inside := Draft.foldlM_quoted absent (d := { quote := some mark, isQuoted := true }) rfl
      rw [List.append_nil] at inside
      have closed : Draft.step { chars := s.toList.reverse, quote := some mark, isQuoted := true } mark =
          some { chars := s.toList.reverse, isQuoted := true } := by simp [Draft.step]
      refine ⟨{ chars := s.toList.reverse, isQuoted := true }, ?_, ?_, rfl⟩
      · have whole : (Slot.text ⟨before, .quoted mark s isMark absent, after, ‹_›, ‹_›⟩).toList =
            before.toList ++ (mark :: (s.toList ++ (mark :: after.toList))) := by
          simp [Slot.text, Spelling.text]
        rw [whole]
        apply Draft.foldlM_append front
        apply Draft.foldlM_cons opened
        apply Draft.foldlM_append inside
        apply Draft.foldlM_cons closed
        exact Draft.foldlM_after blank_after rfl rfl
      · simp [Draft.finish, Slot.argument, Spelling.argument]
  | bare s trimmed start grouped =>
      refine ⟨{ chars := after.toList.reverse ++ (s.toList.reverse ++ before.toList.reverse) }, ?_, ?_, rfl⟩
      · have whole : (Slot.text ⟨before, .bare s trimmed start grouped, after, ‹_›, ‹_›⟩).toList =
            before.toList ++ (s.toList ++ after.toList) := by
          simp [Slot.text, Spelling.text]
        have inside := @Draft.foldlM_isGrouped s.toList before.toList.reverse 0 grouped
          fun _ c first => ⟨start c first, trimmed.1 c first⟩
        rw [whole]
        apply Draft.foldlM_append front
        apply Draft.foldlM_append inside
        exact Draft.foldlM_before blank_after _
      · have kept := Text.trimChars_append blank_before trimmed blank_after
        rw [List.append_assoc] at kept
        simp [Draft.finish, Slot.argument, Spelling.argument, Text.trim, kept]

/-! ## Reading a line -/

/-- The line of one argument more. -/
theorem toList_written_cons (s t : Slot) (rest : List Slot) :
    (written (s :: t :: rest)).toList = s.text.toList ++ ',' :: (written (t :: rest)).toList := by
  rw [written, written, Text.toList_join, Text.toList_join]
  rfl

theorem splitFrom_written (s : Slot) (rest : List Slot) :
    splitFrom {} (written (s :: rest)).toList = (s :: rest).map Slot.argument := by
  induction rest generalizing s with
  | nil =>
      obtain ⟨d, read, finished, -⟩ := exists_draft s
      have whole : (written [s]).toList = s.text.toList ++ [] := by simp [written, Text.toList_join]
      rw [whole, splitFrom_append read, splitFrom, finished]
      rfl
  | cons t rest ih =>
      obtain ⟨d, read, finished, ends⟩ := exists_draft s
      rw [toList_written_cons, splitFrom_append read, splitFrom, ends, ih t]
      show d.finish :: _ = _
      rw [finished]
      rfl

/-- Only blanks are written for an empty argument that is not in quotes, and for nothing else. -/
theorem isBlankText_slot_iff (s : Slot) : isBlankText s.text = true ↔ s.argument = .bare "" := by
  obtain ⟨before, spelling, after, blank_before, blank_after⟩ := s
  rw [isBlankText_iff] at blank_before blank_after ⊢
  have around : (∀ c ∈ (Slot.text ⟨before, spelling, after, ‹_›, ‹_›⟩).toList, isBlank c = true) ↔
      ∀ c ∈ spelling.text.toList, isBlank c = true := by
    simp only [Slot.text, String.toList_append, List.mem_append, or_imp, forall_and]
    exact ⟨fun h => h.1.2, fun h => ⟨⟨blank_before, h⟩, blank_after⟩⟩
  rw [around]
  cases spelling with
  | quoted mark s isMark absent =>
      have visible : ¬ isBlank mark = true := by
        intro blank
        rw [(plain_of_isBlank blank).1] at isMark
        cases isMark
      simp [Spelling.text, Slot.argument, Spelling.argument, visible]
  | bare s trimmed start grouped =>
      show (∀ c ∈ s.toList, isBlank c = true) ↔ Argument.bare s = .bare ""
      rw [Argument.bare.injEq, ← String.toList_eq_nil_iff]
      constructor
      · exact trimmed.eq_nil
      · intro empty
        simp [empty]

/-- A line of several arguments has a comma in it. -/
theorem isBlankText_written_iff (s : Slot) (rest : List Slot) :
    isBlankText (written (s :: rest)) = true ↔ (s :: rest).map Slot.argument = [.bare ""] := by
  cases rest with
  | nil =>
      have whole : written [s] = s.text := by simp [written, Text.join]
      rw [whole, isBlankText_slot_iff, List.map_cons, List.map_nil, List.cons.injEq, and_iff_left rfl]
  | cons t rest =>
      constructor
      · intro blank
        rw [isBlankText_iff, toList_written_cons] at blank
        have comma := blank ',' (by simp)
        cases comma
      · intro one
        simp at one

/-- **A line of arguments is read as the arguments that were written in it**, unless it is blank, and the only
list that is written in blanks is that of one empty argument without quotes. -/
theorem split_written (s : Slot) (rest : List Slot) :
    split (written (s :: rest)) =
      (if isBlankText (written (s :: rest)) then [] else (s :: rest).map Slot.argument) ∧
    (isBlankText (written (s :: rest)) = true ↔ (s :: rest).map Slot.argument = [.bare ""]) := by
  refine ⟨?_, isBlankText_written_iff s rest⟩
  rw [split, splitFrom_written]

example : split "'\x7ba, \"' , \x7bx,y\x7d, it's" = [.quoted "\x7ba, \"", .bare "\x7bx,y\x7d", .bare "it's"] := by
  decide +kernel

end Blockwork.Argument
