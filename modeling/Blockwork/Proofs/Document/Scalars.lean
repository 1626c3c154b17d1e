import Blockwork.Proofs.Json.Parsing
import Blockwork.Proofs.Table
import Blockwork.Scalar

/-!
# Stored values and their documents

When a stored value is read back from its document unchanged.  Truth values and texts always are.
Two things can go wrong with the others.

* A number has a decimal form only if it is finite, and a reader of documents rounds twice: first
  the digits to a double, then the quotient by a power of ten.  `Json.IsExact` says that a number
  comes through both.
* A reader looks into a bounded number of containers, so lists must not be nested too deeply.

`Scalar.IsStorable` is the conjunction of the two, over all numbers anywhere in the value and over its
height.  It is stated on the value alone; `read?_parsed_iff` and `readTable?_parsed_iff` say that it
is exactly what the readers require.
-/

namespace Blockwork

/-- A double whose digits in a document are read as that double. -/
def Json.IsExact (x : Float) : Prop :=
  ∃ t n, Decimal.document? x = some t ∧ numeral? t.toList = some (some n) ∧ n.toFloat = x

namespace Scalar

mutual

/-- The numbers in a value, those in lists included. -/
def numbers : Scalar → List Float
  | .boolean _ => []
  | .number x => [x]
  | .text _ => []
  | .list items => numbersAll items

/-- The numbers in several values. -/
def numbersAll : List Scalar → List Float
  | [] => []
  | s :: rest => numbers s ++ numbersAll rest

end

mutual

/-- How many lists are inside one another. -/
def height : Scalar → Nat
  | .boolean _ => 0
  | .number _ => 0
  | .text _ => 0
  | .list items => heightAll items + 1

/-- The greatest height of several values. -/
def heightAll : List Scalar → Nat
  | [] => 0
  | s :: rest => max (height s) (heightAll rest)

end

/-- A value that is read back from a document in which it may hold `depth` lists inside one
another. -/
structure IsStorable (depth : Nat) (s : Scalar) : Prop where
  /-- Its numbers come through. -/
  exact : ∀ x ∈ s.numbers, Json.IsExact x
  /-- It is not nested too deeply. -/
  shallow : s.height ≤ depth

theorem isStorable_text (depth : Nat) (t : String) : (text t).IsStorable depth :=
  ⟨by simp [numbers], Nat.zero_le _⟩

theorem read?_number_iff (depth : Nat) (x : Float) :
    read? depth (Json.parsed (Json.real x)) = some (.number x) ↔ Json.IsExact x := by
  unfold Json.real Json.IsExact
  cases shown : Decimal.document? x with
  | none => simp [Json.parsed, read?]
  | some t =>
      cases value : Json.numeral? t.toList with
      | none => simp [Json.parsed, Json.Number.parsed, read?, shown, value]
      | some n => simp [Json.parsed, Json.Number.parsed, read?, shown, value]

mutual

/-- **A value is read back from its document exactly if it is storable.** -/
theorem read?_parsed_iff (depth : Nat) :
    ∀ s : Scalar, read? depth (Json.parsed s.toJson) = some s ↔ s.IsStorable depth
  | .boolean b => by
      simp only [toJson, Json.parsed, read?, true_iff]
      exact ⟨by simp [numbers], Nat.zero_le _⟩
  | .number x => by
      rw [toJson, read?_number_iff]
      constructor
      · intro h
        exact ⟨by simpa [numbers] using h, Nat.zero_le _⟩
      · rintro ⟨h, -⟩
        exact h x (by simp [numbers])
  | .text t => by
      simp only [toJson, Json.parsed, read?, Option.map_some, true_iff]
      exact isStorable_text depth t
  | .list items => by
      cases depth with
      | zero =>
          simp only [toJson, Json.parsed, read?, reduceCtorEq, false_iff]
          -- a list is never of height zero
          rintro ⟨-, shallow⟩
          exact absurd shallow (by simp [height])
      | succ depth =>
          have inner := readAll?_parsed_iff depth items
          simp only [toJson, Json.parsed, read?, Option.map_eq_some_iff, list.injEq,
            exists_eq_right, inner]
          constructor
          · rintro ⟨exact, shallow⟩
            exact ⟨exact, Nat.succ_le_succ shallow⟩
          · rintro ⟨exact, shallow⟩
            exact ⟨exact, Nat.le_of_succ_le_succ shallow⟩

theorem readAll?_parsed_iff (depth : Nat) :
    ∀ items : List Scalar, readAll? depth (Json.parsedItems (toJsonAll items)) = some items ↔
      (∀ x ∈ numbersAll items, Json.IsExact x) ∧ heightAll items ≤ depth
  | [] => by simp [toJsonAll, Json.parsedItems, readAll?, numbersAll, heightAll]
  | s :: rest => by
      have first := read?_parsed_iff depth s
      have others := readAll?_parsed_iff depth rest
      have both : readAll? depth (Json.parsedItems (toJsonAll (s :: rest))) = some (s :: rest) ↔
          read? depth (Json.parsed s.toJson) = some s ∧
            readAll? depth (Json.parsedItems (toJsonAll rest)) = some rest := by
        simp only [toJsonAll, Json.parsedItems, readAll?, bind, Option.bind_eq_some_iff, pure,
          Option.some.injEq, List.cons.injEq]
        constructor
        · rintro ⟨s', hs, rest', hrest, rfl, rfl⟩
          exact ⟨hs, hrest⟩
        · rintro ⟨hs, hrest⟩
          exact ⟨s, hs, rest, hrest, rfl, rfl⟩
      rw [both, first, others]
      constructor
      · rintro ⟨⟨exact, shallow⟩, exacts, shallows⟩
        refine ⟨fun x hx => ?_, Nat.max_le.mpr ⟨shallow, shallows⟩⟩
        rcases List.mem_append.mp hx with hx | hx
        · exact exact x hx
        · exact exacts x hx
      · rintro ⟨exacts, shallow⟩
        obtain ⟨here, there⟩ := Nat.max_le.mp shallow
        exact ⟨⟨fun x hx => exacts x (List.mem_append_left _ hx), here⟩,
          fun x hx => exacts x (List.mem_append_right _ hx), there⟩

end

/-! ## Tables of values -/

/-- Reads named values one after another, adding to a table. -/
def readMember? (depth : Nat) (t : Table String Scalar) (m : Option String × Json.Node) :
    Option (Table String Scalar) := do
  let name ← m.1
  let v ← read? depth m.2
  pure (t.insert name v)

/-- The members that a list of named values is parsed into. -/
def parsedEntries (l : List (String × Scalar)) : List (Option String × Json.Node) :=
  l.map fun e => (some e.1, Json.parsed e.2.toJson)

theorem readMember?_eq_some {depth : Nat} {t u : Table String Scalar} {name : String} {s : Scalar} :
    readMember? depth t (some name, Json.parsed s.toJson) = some u ↔
      ∃ v, read? depth (Json.parsed s.toJson) = some v ∧ t.insert name v = u := by
  simp [readMember?, bind, Option.bind_eq_some_iff, pure]

/-- Storable values are all inserted. -/
theorem foldlM_readMember?_of_storable {depth : Nat} {l : List (String × Scalar)}
    (storable : ∀ e ∈ l, e.2.IsStorable depth) (t : Table String Scalar) :
    (parsedEntries l).foldlM (readMember? depth) t =
      some (l.foldl (fun t e => t.insert e.1 e.2) t) := by
  induction l generalizing t with
  | nil => rfl
  | cons e rest ih =>
      have first := (read?_parsed_iff depth e.2).mpr (storable e (List.mem_cons_self ..))
      have step : readMember? depth t (some e.1, Json.parsed e.2.toJson) =
          some (t.insert e.1 e.2) := readMember?_eq_some.mpr ⟨e.2, first, rfl⟩
      rw [parsedEntries, List.map_cons, List.foldlM_cons, step]
      exact ih (fun e he => storable e (List.mem_cons_of_mem _ he)) _

/-- Values that are read are found in the result under their names. -/
theorem get?_of_foldlM_readMember {depth : Nat} {l : List (String × Scalar)}
    (nodup : (l.map Prod.fst).Nodup) {t u : Table String Scalar}
    (read : (parsedEntries l).foldlM (readMember? depth) t = some u) :
    (∀ k, k ∉ l.map Prod.fst → u.get? k = t.get? k) ∧
      ∀ e ∈ l, read? depth (Json.parsed e.2.toJson) = u.get? e.1 := by
  induction l generalizing t with
  | nil =>
      cases read
      exact ⟨fun _ _ => rfl, fun e he => absurd he (by simp)⟩
  | cons e rest ih =>
      rw [List.map_cons, List.nodup_cons] at nodup
      obtain ⟨fresh, nodup⟩ := nodup
      rw [parsedEntries, List.map_cons, List.foldlM_cons] at read
      obtain ⟨t', first, others⟩ := Option.bind_eq_some_iff.mp read
      obtain ⟨v, hv, rfl⟩ := readMember?_eq_some.mp first
      obtain ⟨kept, found⟩ := ih nodup others
      refine ⟨fun k hk => ?_, fun d hd => ?_⟩
      · rw [List.map_cons, List.mem_cons, not_or] at hk
        rw [kept k hk.2, Table.get?_insert_of_ne _ _ (Ne.symm hk.1)]
      · rcases List.mem_cons.mp hd with rfl | hd
        -- nothing later goes by the same name
        · rw [kept _ fresh, Table.get?_insert_self, hv]
        · exact found d hd

/-- **A table of values is read back from its document exactly if every value in it is
storable.** -/
theorem readTable?_parsed_iff (depth : Nat) (g : Table String Scalar) :
    readTable? (depth + 1) (Json.parsed (.object (g.map toJson).toList)) = some g ↔
      ∀ name v, g.get? name = some v → v.IsStorable depth := by
  have shape : readTable? (depth + 1) (Json.parsed (.object (g.map toJson).toList)) =
      (parsedEntries g.toList).foldlM (readMember? depth) Table.empty := by
    rw [Json.parsed, Json.parsedMembers_eq_map]
    simp only [readTable?, Json.Node.dictionary?, Table.map, Table.toList, List.map_map]
    rfl
  rw [shape]
  constructor
  · intro read name v hv
    have found := (get?_of_foldlM_readMember (Table.nodup_keys g.ascending) read).2
      (name, v) ((g.mem_toList_iff name v).mpr hv)
    exact (read?_parsed_iff depth v).mp (found.trans hv)
  · intro storable
    rw [foldlM_readMember?_of_storable fun e he => storable e.1 e.2 ((g.mem_toList_iff ..).mp he),
      Table.foldl_insert_toList]

end Scalar

end Blockwork
