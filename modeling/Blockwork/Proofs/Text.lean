import Blockwork.Text.Ascii
import Blockwork.Text.Split
import Mathlib.Data.List.DropRight
import Mathlib.Data.List.TakeWhile

/-!
# Trimmed text and text between commas

Authored lists are cut at commas, and what stands between two commas is trimmed.  `Text.IsPart` says of a
text that it comes out of this as it went in: it has no comma, and no blank at either end.  Parts that are
joined with commas are cut into the same parts again (`commaParts_join`), and only parts come out of a cut
(`isPart_of_mem_commaParts`).

## What is load-bearing

* Cutting at a character is cutting at the places where a list has an element (`splitChars_eq_splitOn`), so
  that joining and cutting undo each other is known of lists.
* `trimChars_append`: blanks are dropped up to the first and the last character that is not blank, whatever
  is between these.
-/

namespace Blockwork.Text

/-! ## Trimming -/

/-- No digit is blank. -/
theorem isBlank_of_isDigit {c : Char} (h : c.isDigit) : isBlank c = false := by
  simp only [Char.isDigit, Bool.and_eq_true, decide_eq_true_eq, ge_iff_le,
    UInt32.le_iff_toNat_le] at h
  change 48 ≤ c.toNat ∧ c.toNat ≤ 57 at h
  have other : c ≠ ' ' := by
    rintro rfl
    exact absurd h.1 (by decide)
  have below : c.toNat < 0x80 := by omega
  rw [isBlank, if_pos below]
  simp [other]
  omega

/-- Neither the first nor the last character is blank. -/
def IsTrimmed (cs : List Char) : Prop :=
  (∀ c ∈ cs.head?, isBlank c = false) ∧ ∀ c ∈ cs.getLast?, isBlank c = false

theorem trimStartChars_append {bs cs : List Char} (blank : ∀ b ∈ bs, isBlank b)
    (first : ∀ c ∈ cs.head?, isBlank c = false) : trimStartChars (bs ++ cs) = cs := by
  rw [trimStartChars, List.dropWhile_append_of_pos blank]
  cases cs with
  | nil => rfl
  | cons c cs => exact List.dropWhile_cons_of_neg (by simp [first c rfl])

/-- Blanks around what is trimmed are dropped, and nothing else. -/
theorem trimChars_append {bs cs bs' : List Char} (blank : ∀ b ∈ bs, isBlank b)
    (trimmed : IsTrimmed cs) (blank' : ∀ b ∈ bs', isBlank b) :
    trimChars (bs ++ cs ++ bs') = cs := by
  by_cases nothing : cs = []
  · subst nothing
    have all : trimStartChars (bs ++ [] ++ bs') = [] := by
      rw [trimStartChars, List.dropWhile_eq_nil_iff]
      simpa [or_imp, forall_and] using ⟨blank, blank'⟩
    rw [trimChars, all]
    rfl
  · have start : trimStartChars (bs ++ cs ++ bs') = cs ++ bs' := by
      rw [List.append_assoc]
      apply trimStartChars_append blank
      rw [List.head?_append_of_ne_nil _ nothing]
      exact trimmed.1
    have finish : trimStartChars (cs ++ bs').reverse = cs.reverse := by
      rw [List.reverse_append]
      apply trimStartChars_append (by simpa using blank')
      rw [List.head?_reverse]
      exact trimmed.2
    rw [trimChars, start, finish, List.reverse_reverse]

/-- A text is what is trimmed, between blanks. -/
theorem exists_eq_trimChars (cs : List Char) : ∃ bs bs', cs = bs ++ trimChars cs ++ bs' ∧
    (∀ b ∈ bs, isBlank b = true) ∧ ∀ b ∈ bs', isBlank b = true := by
  have start : cs.takeWhile isBlank ++ trimStartChars cs = cs := List.takeWhile_append_dropWhile
  have finish : trimChars cs ++ ((trimStartChars cs).reverse.takeWhile isBlank).reverse =
      trimStartChars cs := by
    rw [trimChars, ← List.reverse_append]
    exact (congrArg List.reverse List.takeWhile_append_dropWhile).trans (List.reverse_reverse _)
  refine ⟨cs.takeWhile isBlank, ((trimStartChars cs).reverse.takeWhile isBlank).reverse, ?_,
    fun b => List.mem_takeWhile_imp, fun b mem => ?_⟩
  · rw [List.append_assoc, finish, start]
  · exact List.mem_takeWhile_imp (List.mem_reverse.mp mem)

theorem isTrimmed_trimChars (cs : List Char) : IsTrimmed (trimChars cs) := by
  have ends : trimChars cs = (trimStartChars cs).rdropWhile isBlank := rfl
  constructor
  · intro c first
    have start : trimChars cs <+: trimStartChars cs := by
      rw [ends]
      exact List.rdropWhile_prefix isBlank _
    have head : c ∈ (cs.dropWhile isBlank).head? := by
      obtain ⟨rest, whole⟩ := start
      change c ∈ (trimStartChars cs).head?
      rw [← whole, List.head?_append, first]
      rfl
    have := List.head?_dropWhile_not isBlank cs
    rw [head] at this
    exact this
  · intro c last
    rw [ends] at last
    obtain ⟨nonempty, rfl⟩ := List.mem_getLast?_eq_getLast last
    exact Bool.eq_false_iff.mpr (List.rdropWhile_last_not isBlank _ nonempty)

/-- What is trimmed is what trimming leaves alone. -/
theorem isTrimmed_iff {cs : List Char} : IsTrimmed cs ↔ trimChars cs = cs := by
  constructor
  · intro trimmed
    simpa using @trimChars_append [] cs [] (by simp) trimmed (by simp)
  · intro same
    rw [← same]
    exact isTrimmed_trimChars cs

theorem trim_eq_self_iff {s : String} : trim s = s ↔ IsTrimmed s.toList := by
  rw [isTrimmed_iff, trim, ← String.toList_inj, String.toList_ofList]

/-- Trimming once is enough. -/
theorem trim_trim (s : String) : trim (trim s) = trim s := by
  refine trim_eq_self_iff.mpr ?_
  rw [trim, String.toList_ofList]
  exact isTrimmed_trimChars _

theorem trimChars_subset (cs : List Char) : trimChars cs ⊆ cs := by
  intro c mem
  rw [trimChars, List.mem_reverse] at mem
  have kept := (List.dropWhile_sublist isBlank).subset mem
  exact (List.dropWhile_sublist isBlank).subset (List.mem_reverse.mp kept)

/-- Characters none of which is blank. -/
theorem IsTrimmed.of_forall {cs : List Char} (h : ∀ c ∈ cs, isBlank c = false) : IsTrimmed cs := by
  constructor
  · intro c first
    exact h c (List.mem_of_mem_head? first)
  · intro c last
    exact h c (List.mem_of_getLast? last)

theorem IsTrimmed.eq_nil {cs : List Char} (h : IsTrimmed cs) (blank : ∀ c ∈ cs, isBlank c = true) :
    cs = [] := by
  cases cs with
  | nil => rfl
  | cons c cs => exact absurd (blank c (List.mem_cons_self ..)) (by simp [h.1 c rfl])

/-- What is unwrapped is what stands between the two characters. -/
theorem unwrapChars_eq_some_iff {opening closing : Char} {cs inner : List Char} :
    unwrapChars opening closing cs = some inner ↔ cs = opening :: inner ++ [closing] := by
  cases cs with
  | nil => simp [unwrapChars]
  | cons c cs =>
      rcases List.eq_nil_or_concat cs with rfl | ⟨cs, d, rfl⟩
      · simp [unwrapChars]
      · simp only [unwrapChars, List.concat_eq_append, List.reverse_append, List.reverse_singleton,
          List.reverse_reverse, List.cons_append, List.cons.injEq]
        split_ifs with first last
        · simp [first, last]
        · simp [last]
        · simp [first]

/-! ## Cutting -/

theorem splitChars_eq_splitOn (separator : Char) (cs : List Char) :
    splitChars separator cs = cs.splitOn separator := by
  unfold List.splitOn
  induction cs with
  | nil => rfl
  | cons c cs ih =>
      rw [splitChars, List.splitOnP_cons_eq_if_modifyHead, ih]
      by_cases same : c = separator
      · simp [same]
      · rw [if_neg same, if_neg (by simpa using same)]
        cases pieces : cs.splitOnP (· == separator) with
        | nil => exact absurd pieces (List.splitOnP_ne_nil _ _)
        | cons piece rest => rfl

/-- There is no separator in a piece. -/
theorem notMem_of_mem_splitChars {separator : Char} {cs piece : List Char}
    (h : piece ∈ splitChars separator cs) : separator ∉ piece := by
  induction cs generalizing piece with
  | nil =>
      rw [splitChars, List.mem_singleton] at h
      rw [h]
      exact List.not_mem_nil
  | cons c cs ih =>
      rw [splitChars] at h
      split at h
      · rcases List.mem_cons.mp h with rfl | h
        · exact List.not_mem_nil
        · exact ih h
      · next other =>
        split at h
        · next none => simp [splitChars_eq_splitOn, List.splitOn, List.splitOnP_ne_nil] at none
        · next first rest pieces =>
          rcases List.mem_cons.mp h with rfl | h
          · rw [List.mem_cons, not_or]
            exact ⟨Ne.symm other, ih (by rw [pieces]; exact List.mem_cons_self ..)⟩
          · exact ih (by rw [pieces]; exact List.mem_cons_of_mem _ h)

theorem splitAtMost_of_notMem {separator : Char} {cs : List Char} (h : separator ∉ cs) (n : Nat) :
    splitAtMost separator (n + 1) cs = [cs] := by
  cases n with
  | zero => rfl
  | succ n =>
      have all : cs.dropWhile (· != separator) = [] := by
        rw [List.dropWhile_eq_nil_iff]
        intro c mem
        rw [bne_iff_ne]
        rintro rfl
        exact h mem
      simp only [splitAtMost, all]

theorem splitAtMost_append {separator : Char} {cs : List Char} (h : separator ∉ cs) (rest : List Char)
    (n : Nat) : splitAtMost separator (n + 2) (cs ++ separator :: rest) =
      cs :: splitAtMost separator (n + 1) rest := by
  have others : ∀ c ∈ cs, (c != separator) = true := by
    intro c mem
    rw [bne_iff_ne]
    rintro rfl
    exact h mem
  rw [splitAtMost, List.dropWhile_append_of_pos others, List.takeWhile_append_of_pos others]
  simp

/-- There is no separator in the first of several pieces. -/
theorem notMem_head_splitAtMost {separator : Char} {n : Nat} {cs piece : List Char}
    (h : (splitAtMost separator (n + 2) cs).head? = some piece) : separator ∉ piece := by
  rw [splitAtMost] at h
  have clear : separator ∉ cs.takeWhile (· != separator) := by
    intro mem
    simpa using List.mem_takeWhile_imp mem
  split at h
  · next all =>
    rw [← List.takeWhile_append_dropWhile (p := (· != separator)) (l := cs), all, List.append_nil] at h
    exact Option.some.inj h ▸ clear
  · exact Option.some.inj h ▸ clear

/-! ## Parts -/

/-- A text that stands between two commas and comes out as it went in. -/
structure IsPart (s : String) : Prop where
  /-- It has no comma. -/
  comma : ',' ∉ s.toList
  /-- It is trimmed. -/
  trimmed : IsTrimmed s.toList

theorem IsPart.empty : IsPart "" := ⟨by simp, by simp [IsTrimmed]⟩

theorem IsPart.of_forall {s : String} (h : ∀ c ∈ s.toList, c ≠ ',' ∧ isBlank c = false) : IsPart s :=
  ⟨fun mem => (h _ mem).1 rfl, IsTrimmed.of_forall fun c mem => (h c mem).2⟩

/-- Trimming does not bring a comma in. -/
theorem isPart_trim {cs : List Char} (h : ',' ∉ cs) : IsPart (trim (String.ofList cs)) := by
  constructor
  · rw [trim, String.toList_ofList, String.toList_ofList]
    exact fun mem => h (trimChars_subset cs mem)
  · rw [trim, String.toList_ofList]
    exact isTrimmed_trimChars _

theorem isPart_of_mem_commaParts {s part : String} (h : part ∈ commaParts s) : IsPart part := by
  rw [commaParts, splitAt, List.map_map, List.mem_map] at h
  obtain ⟨piece, mem, rfl⟩ := h
  exact isPart_trim (notMem_of_mem_splitChars mem)

theorem toList_join (parts : List String) :
    (join "," parts).toList = [','].intercalate (parts.map String.toList) := by
  rw [join, String.toList_intercalate]
  rfl

/-- **Parts joined with commas are cut into the same parts again.** -/
theorem commaParts_join {parts : List String} (some : parts ≠ []) (all : ∀ part ∈ parts, IsPart part) :
    commaParts (join "," parts) = parts := by
  have pieces : splitChars ',' (join "," parts).toList = parts.map String.toList := by
    rw [splitChars_eq_splitOn, toList_join]
    apply List.splitOn_intercalate
    · simpa using fun part mem => (all part mem).comma
    · simpa using some
  rw [commaParts, splitAt, pieces, List.map_map, List.map_map]
  conv_rhs => rw [← List.map_id parts]
  apply List.map_congr_left
  intro part mem
  show trim (String.ofList part.toList) = part
  rw [String.ofList_toList]
  exact trim_eq_self_iff.mpr (all part mem).trimmed

end Blockwork.Text
