import Blockwork.Proofs.Json.Scanning

/-!
# Parsing written values

The tokens of a value are assembled into the node that the value stands for.  The machine that
assembles keeps a stack of open containers, so the statement is one about any stack: from a state in
which a value is expected, the tokens of a value lead to the state in which that value is complete,
with the stack as it was (`assembles_spelling`).

`Json.parsed` is what a written value becomes: itself, except that every number has been read back
from its digits.  Together with the scanner this gives `ofText?_pretty`, the only fact about JSON
text that the rest of the theory uses.
-/

namespace Blockwork.Json

/-- What the text of a number is parsed into. -/
def Number.parsed : Number → Node
  | .whole n => .number ((numeral? (Text.whole n).toList).getD none)
  | .real x =>
    match Decimal.document? x with
    | some t => .number ((numeral? t.toList).getD none)
    | none => .null

mutual

/-- What the text of a value is parsed into. -/
def parsed : Json → Node
  | .null => .null
  | .bool b => .bool b
  | .number n => n.parsed
  | .string s => .string (some s)
  | .array items => .array (parsedItems items)
  | .object members => .object (parsedMembers members)

/-- What the texts of the items of a list are parsed into. -/
def parsedItems : List Json → List Node
  | [] => []
  | v :: rest => parsed v :: parsedItems rest

/-- What the texts of the members of an object are parsed into. -/
def parsedMembers : List (String × Json) → List (Option String × Node)
  | [] => []
  | (k, v) :: rest => (some k, parsed v) :: parsedMembers rest

end

theorem parsedItems_eq_map (items : List Json) : parsedItems items = items.map parsed := by
  induction items with
  | nil => rfl
  | cons v rest ih => rw [parsedItems, ih, List.map_cons]

theorem parsedMembers_eq_map (members : List (String × Json)) :
    parsedMembers members = members.map fun m => (some m.1, parsed m.2) := by
  induction members with
  | nil => rfl
  | cons m rest ih => rw [parsedMembers, ih, List.map_cons]

theorem value_spelling (n : Number) (opened : List Open) :
    Assembly.value opened n.spelling = some ⟨opened, .after n.parsed⟩ := by
  cases n with
  | whole n => rfl
  | real x =>
      unfold Number.spelling Number.parsed
      cases shown : Decimal.document? x with
      | none => simp [Assembly.value, shown]
      | some t => simp [Assembly.value, shown]

/-- Where a list may end, a value may start as well. -/
theorem run_itemOrEnd (v : Json) (opened : List Open) (ts : List Token) :
    Assembly.run ⟨opened, .itemOrEnd⟩ (spelling v ++ ts) =
      Assembly.run ⟨opened, .value⟩ (spelling v ++ ts) := by
  cases v with
  | null => rfl
  | bool b => rfl
  | number n =>
      rw [spelling]
      cases n with
      | whole n => rfl
      | real x =>
          unfold Number.spelling
          cases shown : Decimal.document? x with
          | none => simp [shown, Assembly.run, Assembly.step]
          | some t => simp [shown, Assembly.run, Assembly.step]
  | string s => rfl
  | array items => rfl
  | object members => rfl

/-- Tokens that are assembled into a value, whatever containers are open around it. -/
def Assembles (ts : List Token) (v : Node) : Prop :=
  ∀ opened tail, Assembly.run ⟨opened, .value⟩ (ts ++ tail) =
    Assembly.run ⟨opened, .after v⟩ tail

/-- Tokens that are assembled into a member of an object. -/
def AssemblesMember (ts : List Token) (m : Option String × Node) : Prop :=
  ∃ us, ts = .string m.1 :: .colon :: us ∧ Assembles us m.2

/-- The items of a list, from the first that is still missing to the closing bracket. -/
theorem run_items {spellings : List (List Token)} {items : List Node}
    (each : List.Forall₂ Assembles spellings items) (some : items ≠ []) (opened : List Open)
    (done : List Node) (tail : List Token) :
    Assembly.run ⟨.array done :: opened, .value⟩
        ([Token.comma].intercalate spellings ++ .closeBracket :: tail) =
      Assembly.run ⟨opened, .after (.array (done.reverse ++ items))⟩ tail := by
  induction each generalizing done with
  | nil => exact absurd rfl some
  | @cons ts v tss vs first others ih =>
      cases others with
      | nil =>
          rw [List.intercalate_singleton, first]
          simp [Assembly.run, Assembly.step]
      | cons second others =>
          rw [List.intercalate_cons_cons, List.append_assoc, List.append_assoc, first]
          have comma (more : List Token) :
              Assembly.run ⟨.array done :: opened, .after v⟩ ([.comma] ++ more) =
                Assembly.run ⟨.array (v :: done) :: opened, .value⟩ more := rfl
          rw [comma, ih (by simp)]
          simp

/-- The members of an object, from the first that is still missing to the closing brace. -/
theorem run_members {spellings : List (List Token)} {members : List (Option String × Node)}
    (each : List.Forall₂ AssemblesMember spellings members) (some : members ≠ [])
    (opened : List Open) (done : List (Option String × Node)) (tail : List Token) :
    Assembly.run ⟨opened, .name done⟩
        ([Token.comma].intercalate spellings ++ .closeBrace :: tail) =
      Assembly.run ⟨opened, .after (.object (done.reverse ++ members))⟩ tail := by
  induction each generalizing done with
  | nil => exact absurd rfl some
  | @cons ts m tss ms first others ih =>
      obtain ⟨us, rfl, value⟩ := first
      have name (more : List Token) :
          Assembly.run ⟨opened, .name done⟩ (.string m.1 :: .colon :: us ++ more) =
            Assembly.run ⟨.object done m.1 :: opened, .after m.2⟩ more :=
        value (.object done m.1 :: opened) more
      cases others with
      | nil =>
          rw [List.intercalate_singleton, name]
          simp [Assembly.run, Assembly.step]
      | cons second others =>
          rw [List.intercalate_cons_cons, List.append_assoc, List.append_assoc, name]
          have comma (more : List Token) :
              Assembly.run ⟨.object done m.1 :: opened, .after m.2⟩ ([.comma] ++ more) =
                Assembly.run ⟨opened, .name ((m.1, m.2) :: done)⟩ more := rfl
          rw [comma, ih (by simp)]
          simp

/-- The items of a list start with the first one. -/
theorem itemSpellings_front (v : Json) (rest : List Json) :
    ∃ more, [Token.comma].intercalate (itemSpellings (v :: rest)) = spelling v ++ more := by
  cases rest with
  | nil => exact ⟨[], by simp [itemSpellings]⟩
  | cons w rest =>
      refine ⟨[.comma] ++ [Token.comma].intercalate (itemSpellings (w :: rest)), ?_⟩
      simp [itemSpellings]

mutual

/-- **The tokens of a value are assembled into it.** -/
theorem assembles_spelling : ∀ v : Json, Assembles (spelling v) (parsed v)
  | .null => fun _ _ => rfl
  | .bool _ => fun _ _ => rfl
  | .number n => by
      intro opened tail
      rw [spelling, parsed]
      simp [Assembly.run, Assembly.step, value_spelling]
  | .string _ => fun _ _ => rfl
  | .array [] => fun _ _ => rfl
  | .array (v :: rest) => by
      intro opened tail
      have items := run_items (assembles_items (v :: rest)) (by simp [parsedItems]) opened [] tail
      obtain ⟨more, e⟩ := itemSpellings_front v rest
      rw [spelling, parsed, List.cons_append, List.append_assoc, List.singleton_append]
      rw [e, List.append_assoc] at items ⊢
      rw [List.reverse_nil, List.nil_append] at items
      -- after the bracket the list might also end, which a value rules out
      rw [← items, ← run_itemOrEnd]
      rfl
  | .object [] => fun _ _ => rfl
  | .object ((k, v) :: rest) => by
      intro opened tail
      have members :=
        run_members (assembles_members ((k, v) :: rest)) (by simp [parsedMembers]) opened [] tail
      rw [spelling, parsed, List.cons_append, List.append_assoc, List.singleton_append]
      rw [memberSpellings, List.intercalate_cons_cons_left] at members ⊢
      exact members

theorem assembles_items : ∀ items, List.Forall₂ Assembles (itemSpellings items) (parsedItems items)
  | [] => .nil
  | v :: rest => .cons (assembles_spelling v) (assembles_items rest)

theorem assembles_members :
    ∀ members, List.Forall₂ AssemblesMember (memberSpellings members) (parsedMembers members)
  | [] => .nil
  | (_, v) :: rest => .cons ⟨spelling v, rfl, assembles_spelling v⟩ (assembles_members rest)

end

/-- **A written value is parsed into itself**, its numbers read back from their digits. -/
theorem ofText?_pretty (v : Json) : Node.ofText? (pretty 0 v) = some (parsed v) := by
  have run := assembles_spelling v [] []
  rw [List.append_nil] at run
  rw [Node.ofText?, tokens?_pretty, Option.bind_some, Node.ofTokens?, run]
  rfl

end Blockwork.Json
