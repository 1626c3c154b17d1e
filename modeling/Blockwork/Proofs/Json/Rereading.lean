import Blockwork.Proofs.Json.Parsing
import Blockwork.Proofs.Table

/-!
# Written values as values again

A parser that is asked for values, rather than for the members of a known record, gives a value for
every container it looks into.  `reread?` is what it gives for a value that has been written: the
same value, its numbers read back from their digits and its members in the order of their names.
It is a function of the written value alone; what the reader adds is how deep it looks, and
`toJson?_parsed` separates the two: a reader that looks deep enough finds `reread?` of the value,
and any other finds nothing.

Members are gathered in a table, so a table of values is read back value by value
(`rereadTable?_eq_some_iff`), whatever the order they are written in.
-/

namespace Blockwork.Json

/-! ## Heights -/

mutual

/-- How many containers of a value are inside one another. -/
def height : Json → Nat
  | .array items => heightItems items + 1
  | .object members => heightMembers members + 1
  | _ => 0

/-- The greatest height of the items of a list. -/
def heightItems : List Json → Nat
  | [] => 0
  | v :: rest => max (height v) (heightItems rest)

/-- The greatest height of the members of an object. -/
def heightMembers : List (String × Json) → Nat
  | [] => 0
  | (_, v) :: rest => max (height v) (heightMembers rest)

end

theorem heightItems_le_iff {items : List Json} {depth : Nat} :
    heightItems items ≤ depth ↔ ∀ v ∈ items, v.height ≤ depth := by
  induction items with
  | nil => simp [heightItems]
  | cons v rest ih => rw [heightItems, Nat.max_le, ih, List.forall_mem_cons]

theorem heightMembers_le_iff {members : List (String × Json)} {depth : Nat} :
    heightMembers members ≤ depth ↔ ∀ m ∈ members, m.2.height ≤ depth := by
  induction members with
  | nil => simp [heightMembers]
  | cons m rest ih => rw [heightMembers, Nat.max_le, ih, List.forall_mem_cons]

/-! ## Values -/

/-- A number as it is read back from its digits.  One without digits has been written as `null`. -/
def Number.reread? (n : Number) : Option Json := n.parsed.toJson? 0

mutual

/-- A value as it is read back, its numbers from their digits and its members by ascending name. -/
def reread? : Json → Option Json
  | .null => some .null
  | .bool b => some (.bool b)
  | .number n => n.reread?
  | .string s => some (.string s)
  | .array items => (rereadItems? items).map .array
  | .object members => (rereadMembers? members Table.empty).map fun t => .object t.toList

/-- The items of a list as they are read back. -/
def rereadItems? : List Json → Option (List Json)
  | [] => some []
  | v :: rest => do
    let v ← reread? v
    let rest ← rereadItems? rest
    pure (v :: rest)

/-- The members of an object as they are read back, added to those before them. -/
def rereadMembers? : List (String × Json) → Table String Json → Option (Table String Json)
  | [], t => some t
  | (k, v) :: rest, t => do
    let v ← reread? v
    rereadMembers? rest (t.insert k v)

end

theorem Number.toJson?_parsed (depth : Nat) (n : Number) :
    n.parsed.toJson? depth = n.reread? := by
  unfold reread?
  cases n with
  | whole n => rfl
  | real x =>
      unfold Number.parsed
      dsimp only
      cases Decimal.document? x <;> rfl

mutual

/-- **A reader that looks deep enough into what has been written finds the values read back, and one
that does not finds nothing.** -/
theorem toJson?_parsed (depth : Nat) : ∀ v : Json,
    (parsed v).toJson? depth = if v.height ≤ depth then v.reread? else none
  | .null => by simp [parsed, Node.toJson?, height, reread?]
  | .bool b => by simp [parsed, Node.toJson?, height, reread?]
  | .number n => by simp [parsed, height, reread?, n.toJson?_parsed]
  | .string s => by simp [parsed, Node.toJson?, height, reread?]
  | .array items => by
      cases depth with
      | zero => simp [parsed, Node.toJson?, height]
      | succ depth =>
          rw [parsed, Node.toJson?, itemsToJson?_parsed depth items, height, reread?]
          split <;> split <;> first | rfl | omega
  | .object members => by
      cases depth with
      | zero => simp [parsed, Node.toJson?, height]
      | succ depth =>
          rw [parsed, Node.toJson?, membersToJson?_parsed depth members, height, reread?]
          split <;> split <;> first | rfl | omega

theorem itemsToJson?_parsed (depth : Nat) : ∀ items : List Json,
    Node.itemsToJson? depth (parsedItems items) =
      if heightItems items ≤ depth then rereadItems? items else none
  | [] => by simp [parsedItems, Node.itemsToJson?, heightItems, rereadItems?]
  | v :: rest => by
      rw [parsedItems, Node.itemsToJson?, toJson?_parsed depth v, itemsToJson?_parsed depth rest,
        heightItems, rereadItems?]
      simp only [Nat.max_le]
      by_cases here : v.height ≤ depth <;> by_cases there : heightItems rest ≤ depth <;>
        simp [here, there]

theorem membersToJson?_parsed (depth : Nat) :
    ∀ (members : List (String × Json)) (t : Table String Json),
    Node.membersToJson? depth (parsedMembers members) t =
      if heightMembers members ≤ depth then rereadMembers? members t else none
  | [], t => by simp [parsedMembers, Node.membersToJson?, heightMembers, rereadMembers?]
  | (k, v) :: rest, t => by
      have others := membersToJson?_parsed depth rest
      rw [parsedMembers, Node.membersToJson?, toJson?_parsed depth v, heightMembers, rereadMembers?]
      simp only [Nat.max_le, others]
      by_cases here : v.height ≤ depth <;> by_cases there : heightMembers rest ≤ depth <;>
        simp [here, there]

end

theorem rereadItems?_strings (l : List String) :
    rereadItems? (l.map .string) = some (l.map .string) := by
  induction l with
  | nil => rfl
  | cons s rest ih => simp [rereadItems?, reread?, ih]

/-! ## Tables of values -/

/-- A table of values as it is read back. -/
def rereadTable? (t : Table String Json) : Option (Table String Json) :=
  rereadMembers? t.toList Table.empty

theorem rereadMembers?_eq_foldlM (members : List (String × Json)) (t : Table String Json) :
    rereadMembers? members t =
      members.foldlM (fun t m => (reread? m.2).map fun v => t.insert m.1 v) t := by
  induction members generalizing t with
  | nil => rfl
  | cons m rest ih =>
      rw [rereadMembers?, List.foldlM_cons]
      cases reread? m.2 with
      | none => rfl
      | some v => exact ih _

/-- A table is read back value by value. -/
theorem rereadTable?_eq_some_iff {t u : Table String Json} :
    rereadTable? t = some u ↔
      ∀ k, Option.Rel (fun v w => reread? v = some w) (t.get? k) (u.get? k) := by
  rw [rereadTable?, rereadMembers?_eq_foldlM, ← Table.inserts_toList_iff]
  exact Table.foldlM_eq_some_iff fun e _ t u => by simp [Option.map_eq_some_iff]

/-- A table is read back if each of its values is. -/
theorem rereadTable?_eq_some_iff_map {t u : Table String Json} :
    rereadTable? t = some u ↔ (∀ v ∈ t.values, v.reread?.isSome) ∧
      u = t.map fun v => v.reread?.getD .null := by
  rw [rereadTable?_eq_some_iff, ← Table.rel_iff_eq_map]
  have parts (v w : Json) : v.reread? = some w ↔ v.reread?.isSome ∧ w = v.reread?.getD .null := by
    cases v.reread? <;> simp [eq_comm]
  simp only [parts]

theorem reread?_object (t : Table String Json) :
    reread? (.object t.toList) = (rereadTable? t).map fun u => .object u.toList := by
  rw [reread?, rereadTable?]

theorem membersToJson?_eq_foldlM (depth : Nat) (members : List (Option String × Node))
    (t : Table String Json) :
    members.foldlM (fun t m => do
        let name ← m.1
        let v ← Node.toJson? depth m.2
        pure (t.insert name v)) t = Node.membersToJson? depth members t := by
  induction members generalizing t with
  | nil => rfl
  | cons m rest ih =>
      obtain ⟨name, n⟩ := m
      rw [List.foldlM_cons, Node.membersToJson?]
      cases name with
      | none => rfl
      | some k =>
          cases read : Node.toJson? depth n with
          | none => simp
          | some v => simpa [read] using ih (t.insert k v)

/-- A reader of named values finds the table read back, if it looks deep enough. -/
theorem dictionary?_parsed (depth : Nat) (t : Table String Json) :
    (parsed (.object t.toList)).dictionary? depth Node.toJson? =
      if height (.object t.toList) ≤ depth then rereadTable? t else none := by
  rw [parsed, height]
  cases depth with
  | zero => simp [Node.dictionary?]
  | succ depth =>
      rw [Node.dictionary?, membersToJson?_eq_foldlM, membersToJson?_parsed, rereadTable?]
      simp

/-! ## Numbers -/

theorem digitsAfter_le {n : Nat} (ds : List Char) : n ≤ Text.digitsAfter n ds := by
  rw [Text.digitsAfter_eq]
  exact Nat.le_trans (Nat.le_mul_of_pos_right n (Nat.pow_pos (by decide))) (Nat.le_add_right ..)

/-- Digits that fit into a word are all taken. -/
theorem takeWhole_of_le {ds : List Char} {n : Nat} (small : Text.digitsAfter n ds ≤ maxWord) :
    Scaled.takeWhole ds ⟨n, 0⟩ = ⟨Text.digitsAfter n ds, 0⟩ := by
  induction ds generalizing n with
  | nil => rfl
  | cons c ds ih =>
      have step :
          Text.digitsAfter n (c :: ds) = Text.digitsAfter (n * 10 + Text.digitValue c) ds := by
        rw [Nat.mul_comm]
        rfl
      rw [step] at small ⊢
      have room : Scaled.fits n (Text.digitValue c) :=
        decide_eq_true (Nat.le_trans (digitsAfter_le ds) small)
      have next : Scaled.takeWhole (c :: ds) ⟨n, 0⟩ =
          Scaled.takeWhole ds ⟨n * 10 + Text.digitValue c, 0⟩ := by
        rw [Scaled.takeWhole]
        exact if_pos (Bool.and_eq_true_iff.mpr ⟨decide_eq_true rfl, room⟩)
      rw [next, ih small]

/-- Natural numbers of one word are read back from their digits. -/
theorem numeral?_natural {n : Nat} (small : n ≤ maxWord) :
    numeral? (Text.natural n).toList = some (some (.whole n)) := by
  have whole := isWhole_toDigits n
  have value : Text.digitsAfter 0 (Nat.toDigits 10 n) = n :=
    Nat.ofDigitChars_toDigits (by decide) (by decide)
  have taken : Scaled.takeWhole (Nat.toDigits 10 n) ⟨0, 0⟩ = ⟨n, 0⟩ := by
    rw [takeWhole_of_le (by rwa [value]), value]
  obtain ⟨front, back⟩ := @span_digits _ [] whole.digits ⟨rfl, rfl⟩
  rw [List.append_nil] at front back
  have number : numberOf false (Nat.toDigits 10 n) none none = some (.whole n) := by
    unfold numberOf
    simp [taken]
  have magnitude := (IsMagnitude.plain whole .absent).numeral?_eq
  rw [List.append_nil] at magnitude
  rw [Text.natural, String.toList_ofList, magnitude]
  simp only [unsigned?, front, back, whole.isGood, Bool.false_eq_true, if_false]
  simp [exponentPart?, number]

end Blockwork.Json
