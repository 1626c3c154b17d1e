import Blockwork.Proofs.Json.Numerals
import Mathlib.Data.List.Forall2

/-!
# Scanning written values

A value that is written with one item a line is scanned back into the tokens it is made of.  The
scanner takes one character at a time and knows nothing of values, so the argument runs along the
text: `scanFrom` on `text ++ rest` is `scanFrom` on `rest` with the tokens of `text` found.

What is load-bearing is what may follow.  A numeral has no end of its own: it goes on as long as
characters come that a numeral can contain.  Every statement about a value therefore asks that the
rest of the text `Ends` a numeral, which a comma, a bracket, a line break and the end of the text do.

* `scanFrom_quoted`: a text between quotes is one token, whatever its characters are.
* `scanFrom_written`: so is a number, and its token is what the reader of numerals makes of it.
* `tokens?_pretty`: a written value is scanned into `spelling`.
-/

namespace Blockwork.Json

variable {found : List Token} {rest : List Char}

/-- The rest of a text does not go on with a numeral that stands before it. -/
def Ends (rest : List Char) : Prop := ∀ c cs, rest = c :: cs → isNumeralChar c = false

theorem ends_nil : Ends [] := by
  intro c cs h
  cases h

theorem ends_cons {c : Char} (h : isNumeralChar c = false) (cs : List Char) : Ends (c :: cs) := by
  intro d ds e
  cases e
  exact h

/-! ## Words and blanks -/

/-- A word that is complete is found before the next character is looked at. -/
theorem scanFrom_word (t : Token) (found : List Token) (rest : List Char) :
    scanFrom (.word [] t) found rest = scanFrom .idle (t :: found) rest := by
  cases rest with
  | nil => rfl
  | cons c cs => rfl

theorem scanFrom_blanks (n : Nat) :
    scanFrom .idle found (List.replicate n ' ' ++ rest) = scanFrom .idle found rest := by
  induction n with
  | zero => rfl
  | succ n ih =>
      rw [List.replicate_succ, List.cons_append, ← ih]
      rfl

/-! ## Text literals -/

theorem hexValue?_hexDigit : ∀ n < 16, hexValue? (hexDigit n) = some n := by decide

/-- A code point escape of a control character stands for that character: it is no half of a
surrogate pair. -/
theorem pushUnit_of_lt (done : List Char) {n : Nat} (small : n < 32) (e : Escape) :
    ({ done, escape := e } : Literal).pushUnit n = { done := Char.ofNat n :: done } := by
  have high : ¬ 0xd800 ≤ n := by omega
  have low : ¬ 0xdc00 ≤ n := by omega
  simp [Literal.pushUnit, Literal.push, high, low]

/-- A character is read back from the form it has between quotes. -/
theorem scanFrom_escaped (c : Char) (done : List Char) :
    scanFrom (.literal { done }) found (escaped c ++ rest) =
      scanFrom (.literal { done := c :: done }) found rest := by
  have back {n : Nat} (h : c.toNat = n) : Char.ofNat n = c := by rw [← h, Char.ofNat_toNat]
  unfold escaped
  split
  · next h => subst h; rfl
  split
  · next h => subst h; rfl
  split
  · next h => rw [← back h]; rfl
  split
  · next h => rw [← back h]; rfl
  split
  · next h => rw [← back h]; rfl
  split
  · next h => rw [← back h]; rfl
  split
  · next h => rw [← back h]; rfl
  split
  · next small =>
    have first := hexValue?_hexDigit (c.toNat / 16) (by omega)
    have second := hexValue?_hexDigit (c.toNat % 16) (by omega)
    have zero : hexValue? '0' = some 0 := by decide
    have value : c.toNat / 16 * 16 + c.toNat % 16 = c.toNat := by omega
    have unit := pushUnit_of_lt done (n := c.toNat) (by omega)
    simp [scanFrom, scanStep, literalStep, zero, first, second, value, unit]
  · next quote slash _ _ _ _ _ printable =>
    simp [scanFrom, scanStep, literalStep, Literal.push, quote, slash, printable]

theorem scanFrom_escapedAll (cs done : List Char) :
    scanFrom (.literal { done }) found (cs.flatMap escaped ++ rest) =
      scanFrom (.literal { done := cs.reverse ++ done }) found rest := by
  induction cs generalizing done with
  | nil => rfl
  | cons c cs ih =>
      rw [List.flatMap_cons, List.append_assoc, scanFrom_escaped, ih]
      simp

/-- **A text between quotes is one token**, whatever its characters are. -/
theorem scanFrom_quoted (s : String) :
    scanFrom .idle found ((quoted s).toList ++ rest) =
      scanFrom .idle (.string (some s) :: found) rest := by
  have shape : (quoted s).toList ++ rest =
      '"' :: (s.toList.flatMap escaped ++ '"' :: rest) := by
    simp [quoted]
  have opening : scanFrom .idle found ('"' :: (s.toList.flatMap escaped ++ '"' :: rest)) =
      scanFrom (.literal {}) found (s.toList.flatMap escaped ++ '"' :: rest) := rfl
  rw [shape, opening, scanFrom_escapedAll s.toList []]
  have closing : scanFrom (.literal { done := s.toList.reverse ++ [] }) found ('"' :: rest) =
      scanFrom .idle (({ done := s.toList.reverse ++ [] } : Literal).close :: found) rest := rfl
  rw [closing]
  simp [Literal.close]

/-! ## Numbers -/

theorem scanFrom_numeralChars {ds : List Char} (chars : ∀ c ∈ ds, isNumeralChar c)
    (lexeme : List Char) :
    scanFrom (.numeral lexeme) found (ds ++ rest) =
      scanFrom (.numeral (ds.reverse ++ lexeme)) found rest := by
  induction ds generalizing lexeme with
  | nil => rfl
  | cons c ds ih =>
      have first := chars c (List.mem_cons_self ..)
      have step : scanFrom (.numeral lexeme) found (c :: (ds ++ rest)) =
          scanFrom (.numeral (c :: lexeme)) found (ds ++ rest) := by
        simp [scanFrom, scanStep, first]
      rw [List.cons_append, step, ih fun d hd => chars d (List.mem_cons_of_mem _ hd)]
      simp

/-- A numeral is found when what follows ends it. -/
theorem scanFrom_numeral_end {lexeme : List Char} {n : Option Number}
    (value : numeral? lexeme.reverse = some n) (ends : Ends rest) :
    scanFrom (.numeral lexeme) found rest = scanFrom .idle (.number n :: found) rest := by
  cases rest with
  | nil => simp [scanFrom, finish, value]
  | cons c cs => simp [scanFrom, scanStep, ends c cs rfl, value]

theorem IsNumeral.head {cs : List Char} (h : IsNumeral cs) :
    ∃ c ds, cs = c :: ds ∧ begin c found = some (.numeral [c], found) := by
  rcases h with h | ⟨body, rfl, -⟩
  · obtain ⟨c, ds, rfl, digit⟩ := h.head
    -- a digit is none of the marks, blanks and quotes
    have other {d : Char} (h : d.isDigit = false) : c ≠ d := by
      rintro rfl
      rw [digit] at h
      cases h
    have unmarked : mark? c = none := by
      simp [mark?, other (d := '\x7b') rfl, other (d := '\x7d') rfl, other (d := '[') rfl,
        other (d := ']') rfl, other (d := ',') rfl, other (d := ':') rfl]
    have solid : isSpace c = false := by
      simp [isSpace, other (d := ' ') rfl, other (d := '\n') rfl, other (d := '\t') rfl,
        other (d := '\r') rfl]
    exact ⟨c, ds, rfl, by simp [begin, unmarked, solid, digit, other (d := '"') rfl]⟩
  · exact ⟨'-', body, rfl, rfl⟩

/-- A numeral is one token: the number that the reader of numerals makes of it. -/
theorem scanFrom_numeral {cs : List Char} (h : IsNumeral cs) (ends : Ends rest) :
    scanFrom .idle found (cs ++ rest) =
      scanFrom .idle (.number ((numeral? cs).getD none) :: found) rest := by
  obtain ⟨n, value⟩ := Option.isSome_iff_exists.mp h.isSome
  obtain ⟨c, ds, rfl, start⟩ : ∃ c ds, cs = c :: ds ∧ begin c found = some (.numeral [c], found) :=
    h.head
  have chars := h.chars
  have opening : scanFrom .idle found (c :: (ds ++ rest)) =
      scanFrom (.numeral [c]) found (ds ++ rest) := by
    simp [scanFrom, scanStep, start]
  rw [List.cons_append, opening,
    scanFrom_numeralChars fun d hd => chars d (List.mem_cons_of_mem _ hd),
    scanFrom_numeral_end (n := n) (by simpa using value) ends, value]
  rfl

/-- The token of a written number.  One without a decimal form is written as a word. -/
def Number.spelling : Number → Token
  | .whole n => .number ((numeral? (Text.whole n).toList).getD none)
  | .real x =>
    match Decimal.document? x with
    | some t => .number ((numeral? t.toList).getD none)
    | none => .null

/-- **A written number is one token.** -/
theorem scanFrom_written (n : Number) (ends : Ends rest) :
    scanFrom .idle found (n.written.toList ++ rest) =
      scanFrom .idle (n.spelling :: found) rest := by
  cases n with
  | whole n => exact scanFrom_numeral (isNumeral_whole n) ends
  | real x =>
      cases shown : Decimal.document? x with
      | none =>
          simp only [Number.written, Number.spelling, shown]
          exact scanFrom_word .null found rest
      | some t =>
          simp only [Number.written, Number.spelling, shown]
          exact scanFrom_numeral (isNumeral_document shown) ends

/-! ## Values -/

/-- A text that is scanned into some tokens, whatever was found before and whatever comes after, as
long as that ends a numeral. -/
def Scans (text : String) (tokens : List Token) : Prop :=
  ∀ found rest, Ends rest →
    scanFrom .idle found (text.toList ++ rest) = scanFrom .idle (tokens.reverse ++ found) rest

mutual

/-- The tokens of a value. -/
def spelling : Json → List Token
  | .null => [.null]
  | .bool b => [.bool b]
  | .number n => [n.spelling]
  | .string s => [.string (some s)]
  | .array items => .openBracket :: ([Token.comma].intercalate (itemSpellings items) ++ [.closeBracket])
  | .object members =>
    .openBrace :: ([Token.comma].intercalate (memberSpellings members) ++ [.closeBrace])

/-- The tokens of each item of a list. -/
def itemSpellings : List Json → List (List Token)
  | [] => []
  | v :: rest => spelling v :: itemSpellings rest

/-- The tokens of each member of an object. -/
def memberSpellings : List (String × Json) → List (List Token)
  | [] => []
  | (k, v) :: rest => (.string (some k) :: .colon :: spelling v) :: memberSpellings rest

end

/-- Two texts in a row, where the second ends a numeral. -/
theorem Scans.append {a b : String} {t u : List Token} (first : Scans a t) (second : Scans b u)
    (stop : ∀ rest, Ends rest → Ends (b.toList ++ rest)) : Scans (a ++ b) (t ++ u) := by
  intro found rest ends
  rw [String.toList_append, List.append_assoc, first _ _ (stop rest ends), second _ _ ends]
  simp

/-- A text in front that is not a numeral needs nothing of what follows. -/
theorem Scans.prepend {a b : String} {t u : List Token}
    (first : ∀ found rest, scanFrom .idle found (a.toList ++ rest) =
      scanFrom .idle (t.reverse ++ found) rest) (second : Scans b u) :
    Scans (a ++ b) (t ++ u) := by
  intro found rest ends
  rw [String.toList_append, List.append_assoc, first, second _ _ ends]
  simp

theorem scanFrom_indent (depth : Nat) :
    scanFrom .idle found ((indent depth).toList ++ rest) = scanFrom .idle found rest := by
  rw [indent, String.toList_ofList, scanFrom_blanks]

theorem Scans.indented {l : String} {ts : List Token} (h : Scans l ts) (depth : Nat) :
    Scans (indent depth ++ l) ts := h.prepend (t := []) fun _ _ => scanFrom_indent depth

/-- Lines with a comma and a line break between them, indented. -/
theorem scans_lines {lines : List String} {spellings : List (List Token)}
    (each : List.Forall₂ Scans lines spellings) (depth : Nat) :
    Scans (Text.join ",\n" (lines.map fun l => indent depth ++ l))
      ([Token.comma].intercalate spellings) := by
  induction each with
  | nil => intro found rest _; rfl
  | @cons l ts ls tss first others ih =>
      cases others with
      | nil => simpa [Text.join] using first.indented depth
      | cons second others =>
          have comma : Scans (",\n" ++ _) ([Token.comma] ++ _) :=
            ih.prepend fun found rest => rfl
          -- the comma ends whatever numeral the first line ends with
          have stop (text : String) (rest : List Char) (_ : Ends rest) :
              Ends ((",\n" ++ text).toList ++ rest) := by
            rw [String.toList_append]
            exact ends_cons rfl _
          have joined := (first.indented depth).append comma (stop _)
          simpa only [Text.join, List.map_cons, String.intercalate_cons_cons,
            List.intercalate_cons_cons, String.append_assoc, List.append_assoc] using joined

/-- Lines between two marks. -/
theorem scans_block {lines : List String} {spellings : List (List Token)}
    (each : List.Forall₂ Scans lines spellings) (depth : Nat) {opening closing : String}
    {o c : Token}
    (opens : ∀ found rest, scanFrom .idle found (opening.toList ++ rest) =
      scanFrom .idle (o :: found) rest)
    (closes : ∀ found rest, scanFrom .idle found (closing.toList ++ rest) =
      scanFrom .idle (c :: found) rest) :
    Scans (block opening closing depth lines)
      (o :: ([Token.comma].intercalate spellings ++ [c])) := by
  have last : Scans closing [c] := fun found rest _ => closes found rest
  unfold block
  cases each with
  | nil => exact last.prepend (t := [o]) opens
  | cons first others =>
      have inner := scans_lines (.cons first others) (depth + 1)
      have tail : Scans ("\n" ++ (indent depth ++ closing)) [c] :=
        (last.indented depth).prepend (t := []) fun found rest => rfl
      -- the line break before the closing mark ends a numeral
      have stop (rest : List Char) (_ : Ends rest) :
          Ends (("\n" ++ (indent depth ++ closing)).toList ++ rest) := by
        rw [String.toList_append]
        exact ends_cons rfl _
      have start : Scans ("\n" ++ _) ([] ++ _) :=
        (inner.append tail stop).prepend fun found rest => rfl
      have whole := start.prepend (t := [o]) opens
      simpa [String.append_assoc] using whole

mutual

/-- **A written value is scanned into its tokens.** -/
theorem scans_pretty (depth : Nat) : ∀ v : Json, Scans (pretty depth v) (spelling v)
  | .null => by
      rw [pretty, spelling]
      exact fun found rest _ => scanFrom_word .null found rest
  | .bool true => by
      rw [pretty, spelling]
      exact fun found rest _ => scanFrom_word (.bool true) found rest
  | .bool false => by
      rw [pretty, spelling]
      exact fun found rest _ => scanFrom_word (.bool false) found rest
  | .number n => by
      rw [pretty, spelling]
      exact fun found rest ends => scanFrom_written n ends
  | .string s => by
      rw [pretty, spelling]
      exact fun found rest _ => scanFrom_quoted s
  | .array items => by
      rw [pretty, spelling]
      exact scans_block (scans_items (depth + 1) items) depth (fun _ _ => rfl) fun _ _ => rfl
  | .object members => by
      rw [pretty, spelling]
      exact scans_block (scans_members (depth + 1) members) depth (fun _ _ => rfl) fun _ _ => rfl

theorem scans_items (depth : Nat) :
    ∀ items, List.Forall₂ Scans (prettyItems depth items) (itemSpellings items)
  | [] => .nil
  | v :: rest => .cons (scans_pretty depth v) (scans_items depth rest)

theorem scans_members (depth : Nat) :
    ∀ members, List.Forall₂ Scans (prettyMembers depth members) (memberSpellings members)
  | [] => .nil
  | (k, v) :: rest => by
      refine .cons ?_ (scans_members depth rest)
      have colon : Scans (": " ++ pretty depth v) ([Token.colon] ++ spelling v) :=
        (scans_pretty depth v).prepend fun found rest => rfl
      have member := colon.prepend (t := [.string (some k)]) fun found rest => scanFrom_quoted k
      rwa [← String.append_assoc] at member

end

theorem tokens?_pretty (v : Json) : tokens? (pretty 0 v).toList = some (spelling v) := by
  have scanned := scans_pretty 0 v [] [] ends_nil
  rw [List.append_nil, List.append_nil] at scanned
  rw [tokens?, scanned]
  simp [scanFrom, finish]

end Blockwork.Json
