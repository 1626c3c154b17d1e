import Blockwork.Proofs.Document.Blocks
import Blockwork.Proofs.Document.Scalars
import Blockwork.Proofs.Json.Rereading

/-!
# Values and parameters that go through text

Encoding and decoding alone lose nothing but numbers that are not finite.  Text loses more: a number
is written with few digits and read back by a rule that rounds twice, and a single is widened before
it is written.  `Value.IsExact` says of a value that each number in it comes through.

## What is load-bearing

* `Value.returned?_eq_some_iff`: a value is read back as itself exactly if it is exact.  A number
  with a template of its own is written as text and is not concerned.
* `Value.restored`: what a value is read back as, exact or not.  Parameters and instructions are
  read back with every value replaced by what it is read back as (`Instruction.ofJson_reread_iff`),
  and nothing else about them changes.  So what happens to an instruction follows from what happens
  to each of its values.
* `Instruction.normal_mapValues_iff`: replacing values shows.  Two instructions that differ in a
  value are different instructions, also in their normal spelling.
-/

namespace Blockwork

/-! ## Numbers -/

namespace Json

/-- A single whose digits in a document are read as that single. -/
def IsExactSingle (y : Float32) : Prop :=
  ∃ t n, Decimal.document? (Binary.widen y) = some t ∧ numeral? t.toList = some (some n) ∧
    n.toSingle = y

/-- What is read of a double. -/
theorem reread?_real (x : Float) (j : Json) :
    reread? (real x) = some j ↔ (Decimal.document? x = none ∧ j = .null) ∨
      ∃ t n, Decimal.document? x = some t ∧ numeral? t.toList = some (some n) ∧ j = .number n := by
  unfold real
  cases shown : Decimal.document? x with
  | none => simp [reread?, eq_comm]
  | some t =>
      cases value : numeral? t.toList with
      | none => simp [reread?, Number.reread?, Number.parsed, shown, value, Node.toJson?]
      | some n =>
          cases n <;>
            simp [reread?, Number.reread?, Number.parsed, shown, value, Node.toJson?, eq_comm]

theorem isExact_iff (x : Float) :
    IsExact x ↔ ∃ j, reread? (real x) = some j ∧ j.toFloat? = some x := by
  simp only [reread?_real]
  constructor
  · rintro ⟨t, n, shown, value, same⟩
    exact ⟨.number n, .inr ⟨t, n, shown, value, rfl⟩, congrArg some same⟩
  · rintro ⟨j, ⟨-, rfl⟩ | ⟨t, n, shown, value, rfl⟩, same⟩
    · cases same
    · exact ⟨t, n, shown, value, Option.some.inj same⟩

theorem isExactSingle_iff (y : Float32) :
    IsExactSingle y ↔ ∃ j, reread? (real (Binary.widen y)) = some j ∧ j.toSingle? = some y := by
  simp only [reread?_real]
  constructor
  · rintro ⟨t, n, shown, value, same⟩
    exact ⟨.number n, .inr ⟨t, n, shown, value, rfl⟩, congrArg some same⟩
  · rintro ⟨j, ⟨-, rfl⟩ | ⟨t, n, shown, value, rfl⟩, same⟩
    · cases same
    · exact ⟨t, n, shown, value, Option.some.inj same⟩

theorem reread?_natural {n : Nat} (small : n ≤ maxWord) :
    reread? (natural n) = some (natural n) := by
  have read := numeral?_natural small
  simp [natural, whole, reread?, Number.reread?, Number.parsed, Node.toJson?, Text.whole, read]

end Json

namespace Value

/-- The doubles that are written for a compound value. -/
def reals (v : Value) : List Float := v.doubles ++ v.singles.map Binary.widen

/-- A number as it is read back; what is not read counts as `null`. -/
def rewritten (x : Float) : Json := (Json.real x).reread?.getD .null

theorem reread?_word (n : UInt32) : Json.reread? (.natural n.toNat) = some (.natural n.toNat) :=
  Json.reread?_natural (Nat.le_trans (Nat.le_of_lt n.toNat_lt) (by decide))

theorem reread?_byte (n : UInt8) : Json.reread? (.natural n.toNat) = some (.natural n.toNat) :=
  Json.reread?_natural (Nat.le_trans (Nat.le_of_lt n.toNat_lt) (by decide))

/-- The details of a value other than its numbers are read as they are. -/
theorem reread?_details (v : Value) : ∀ m ∈ v.detailsWith Json.real,
    (∃ x ∈ v.reals, m.2 = Json.real x) ∨ m.2.reread? = some m.2 := by
  cases v with
  | location p =>
      cases h : p.world <;> simp [detailsWith, reals, doubles, singles, Json.reread?, h]
  | item i =>
      cases h : i.displayName <;> simp [detailsWith, details, Json.reread?, reread?_word, h]
  | sound | particle =>
      simp [detailsWith, reals, doubles, singles, Json.reread?, reread?_word]
  | _ => simp [detailsWith, details, Json.reread?, reread?_word, reread?_byte]

/-- Every number of a value is among its details. -/
theorem exists_mem_details (v : Value) :
    ∀ x ∈ v.reals, ∃ k, (k, Json.real x) ∈ v.detailsWith Json.real := by
  cases v with
  | location | sound | particle =>
      simp [detailsWith, reals, doubles, singles, exists_or]
  | _ => simp [reals, doubles, singles]

/-- Reading the details back reads their numbers back. -/
theorem detailsWith_rewritten (v : Value) :
    v.detailsWith rewritten =
      (v.detailsWith Json.real).map fun m => (m.1, m.2.reread?.getD .null) := by
  cases v with
  | location p => cases h : p.world <;> simp [detailsWith, rewritten, Json.reread?, h]
  | item i =>
      cases h : i.displayName <;>
        simp [detailsWith, details, Json.reread?, reread?_word, h]
  | _ => simp [detailsWith, details, rewritten, Json.reread?, reread?_word, reread?_byte]

theorem membersWith_rewritten (v : Value) :
    v.membersWith rewritten = (v.membersWith Json.real).map fun j => j.reread?.getD .null := by
  apply Table.ext
  intro k
  rw [Table.get?_map, get?_membersWith, get?_membersWith, detailsWith_rewritten, ← Table.find_map]
  simp [Json.reread?]

/-- **The description of a value is read back if its numbers are.** -/
theorem rereadTable?_membersWith {v : Value} {u : Table String Json} :
    Json.rereadTable? (v.membersWith Json.real) = some u ↔
      (∀ x ∈ v.reals, (Json.real x).reread?.isSome) ∧ u = v.membersWith rewritten := by
  rw [Json.rereadTable?_eq_some_iff_map, membersWith_rewritten]
  refine and_congr_left fun _ => ?_
  have listed (k : String) (j : Json) : (v.membersWith Json.real).get? k = some j ↔
      (k, j) ∈ ("kind", Json.string (Named.name v.kind)) :: v.detailsWith Json.real := by
    rw [get?_membersWith, Table.mem_iff_find (nodup_membersWith _ v)]
  simp only [Table.mem_values_iff, listed]
  constructor
  · intro each x hx
    obtain ⟨k, here⟩ := v.exists_mem_details x hx
    exact each _ ⟨k, List.mem_cons_of_mem _ here⟩
  · rintro each j ⟨k, here⟩
    rcases List.mem_cons.mp here with kind | here
    · rw [(Prod.mk.inj kind).2, Json.reread?]
      rfl
    · rcases v.reread?_details _ here with ⟨x, hx, real⟩ | same
      · rw [show j = Json.real x from real]
        exact each x hx
      · rw [show j.reread? = some j from same]
        rfl

/-- A value as it is read back from its text. -/
def returned? (v : Value) : Option Value := v.toJson.reread?.bind fun j => (ofJson j).toOption

/-- A value whose numbers come through. -/
structure IsExact (v : Value) : Prop where
  /-- A number that is written as such. -/
  literal : ∀ x, v = ofFloat x → Binary.isFinite x → Json.IsExact x
  /-- Coordinates and spreads. -/
  doubles : ∀ x ∈ v.doubles, Json.IsExact x
  /-- Angles, volumes and pitches. -/
  singles : ∀ y ∈ v.singles, Json.IsExactSingle y

theorem ofFloat_inj {x y : Float} : ofFloat x = ofFloat y ↔ x = y := by
  constructor
  · intro same
    have literal := congrArg NumberText.literal (number.inj same)
    rwa [NumberText.literal_ofFloat, NumberText.literal_ofFloat, Option.some_inj] at literal
  · rintro rfl
    rfl

theorem isExact_iff_rewritten (x : Float) :
    Json.IsExact x ↔ (Json.real x).reread?.isSome ∧ (rewritten x).toFloat? = some x := by
  rw [Json.isExact_iff, rewritten]
  cases (Json.real x).reread? <;> simp

theorem isExactSingle_iff_rewritten (y : Float32) :
    Json.IsExactSingle y ↔ (Json.real (Binary.widen y)).reread?.isSome ∧
      (rewritten (Binary.widen y)).toSingle? = some y := by
  rw [Json.isExactSingle_iff, rewritten]
  cases (Json.real (Binary.widen y)).reread? <;> simp

/-- A number that is written as such is read back if it comes through. -/
theorem returned?_ofFloat_iff {x : Float} (finite : Binary.isFinite x) :
    (ofFloat x).returned? = some (ofFloat x) ↔ Json.IsExact x := by
  rw [returned?, toJson_ofFloat finite, ← Json.real_of_isFinite finite, Json.isExact_iff,
    Option.bind_eq_some_iff]
  refine exists_congr fun j => and_congr_right fun read => ?_
  rcases (Json.reread?_real x j).mp read with ⟨absent, rfl⟩ | ⟨t, n, -, -, rfl⟩
  · simp [ofJson, Except.toOption, Json.toFloat?]
  · simp [ofJson, Except.toOption, Json.toFloat?, ofFloat_inj]

/-- Any other value is read back if the numbers in its description come through. -/
theorem returned?_tagged_iff {v : Value}
    (described : v.toJson = .object (v.membersWith Json.real).toList)
    (raw : ∀ n, v = .number n → NumberText.ofRaw n.raw = n) :
    v.returned? = some v ↔
      (∀ x ∈ v.doubles, Json.IsExact x) ∧ ∀ y ∈ v.singles, Json.IsExactSingle y := by
  have read : v.returned? = some v ↔ (∀ x ∈ v.reals, (Json.real x).reread?.isSome) ∧
      ofTagged? (v.membersWith rewritten).toList = some v := by
    have tagged (members : List (String × Json)) :
        (ofJson (.object members)).toOption = ofTagged? members := by
      rw [ofJson]
      cases ofTagged? members <;> rfl
    rw [returned?, described, Json.reread?_object, Option.bind_map, Option.bind_eq_some_iff]
    simp only [rereadTable?_membersWith, Function.comp_apply, tagged]
    constructor
    · rintro ⟨_, ⟨each, same⟩, found⟩
      exact ⟨each, same ▸ found⟩
    · rintro ⟨each, found⟩
      exact ⟨_, ⟨each, rfl⟩, found⟩
  rw [read, ofTagged?_membersWith_iff]
  simp only [reals, List.mem_append, List.mem_map, isExact_iff_rewritten,
    isExactSingle_iff_rewritten]
  constructor
  · rintro ⟨each, doubles, singles, -⟩
    exact ⟨fun x hx => ⟨each x (.inl hx), doubles x hx⟩,
      fun y hy => ⟨each _ (.inr ⟨y, hy, rfl⟩), singles y hy⟩⟩
  · rintro ⟨doubles, singles⟩
    refine ⟨?_, fun x hx => (doubles x hx).2, fun y hy => (singles y hy).2, raw⟩
    rintro x (hx | ⟨y, hy, rfl⟩)
    · exact (doubles x hx).1
    · exact (singles y hy).1

/-- **A value is read back from its text exactly if its numbers come through.** -/
theorem returned?_eq_some_iff (v : Value) : v.returned? = some v ↔ v.IsExact := by
  rcases v.toJson_cases with ⟨raw, rfl, h⟩ | ⟨x, rfl, finite, h⟩ | ⟨h, raw⟩
  · simp only [returned?, h, Json.reread?, Option.bind_some, ofJson, Except.toOption, true_iff]
    refine ⟨?_, ?_, ?_⟩
    · intro _ same
      cases same
    · intro _ none
      cases none
    · intro _ none
      cases none
  · rw [returned?_ofFloat_iff finite]
    constructor
    · intro exact
      refine ⟨fun y same _ => ofFloat_inj.mp same ▸ exact, ?_, ?_⟩
      · intro _ none
        cases none
      · intro _ none
        cases none
    · intro exact
      exact exact.literal x rfl finite
  · rw [returned?_tagged_iff h raw]
    constructor
    · rintro ⟨doubles, singles⟩
      refine ⟨fun x same finite => ?_, doubles, singles⟩
      subst same
      rw [toJson_ofFloat finite] at h
      cases h
    · intro exact
      exact ⟨exact.doubles, exact.singles⟩

end Value

theorem Value.reread?_toJson_ne_null (v : Value) : v.toJson.reread? ≠ some .null := by
  rcases v.toJson_cases with ⟨raw, -, h⟩ | ⟨x, -, finite, h⟩ | ⟨h, -⟩
  · simp [h, Json.reread?]
  · rw [h, ← Json.real_of_isFinite finite, Ne, Json.reread?_real]
    rintro (⟨absent, -⟩ | ⟨t, n, -, -, number⟩)
    · have shown := Json.real_of_isFinite finite
      simp [Json.real, absent] at shown
    · cases number
  · simp [h, Json.reread?_object]

/-! ## Parameters -/

/-- The condition with its operands replaced. -/
def Condition.mapValues (f : Value → Value) (c : Condition) : Condition :=
  { c with left := c.left.map f, right := c.right.map f }

/-- The parameter with its values replaced. -/
def Param.mapValues (f : Value → Value) : Param → Param
  | .value v => .value (f v)
  | .condition c => .condition (c.mapValues f)
  | .values t => .values (t.map f)
  | q => q

/-- A value that is read back from its text, though perhaps not as itself. -/
def Value.IsReadable (v : Value) : Prop := v.returned?.isSome

/-- The value that is read back. -/
def Value.restored (v : Value) : Value := v.returned?.getD v

theorem Value.returned?_iff_restored {v w : Value} :
    (∃ j, v.toJson.reread? = some j ∧ ofJson j = .ok w) ↔ v.IsReadable ∧ w = v.restored := by
  have read (j : Json) : ofJson j = .ok w ↔ (ofJson j).toOption = some w := by
    cases ofJson j <;> simp [Except.toOption]
  simp only [read, ← Option.bind_eq_some_iff]
  change v.returned? = some w ↔ _
  unfold IsReadable restored
  cases v.returned? <;> simp [eq_comm]

/-- Named values are read back one by one. -/
theorem valuesOfJson_reread_iff {t t' : Table String Value} :
    (∃ u, Json.rereadTable? (t.map Value.toJson) = some u ∧ valuesOfJson u.toList = .ok t') ↔
      (∀ v ∈ t.values, v.IsReadable) ∧ t' = t.map Value.restored := by
  simp only [valuesOfJson_eq_ok_iff, Json.rereadTable?_eq_some_iff]
  rw [Table.exists_rel_iff, ← Table.rel_iff_eq_map]
  refine forall_congr' fun k => ?_
  rw [Table.get?_map]
  cases t.get? k <;> cases t'.get? k <;> simp [Value.returned?_iff_restored]

/-- Parameters that are each read back with their values are read back with all values. -/
theorem paramsWith_reread_iff {read : Shape → Json → Except Misfit Param} {write : Param → Json}
    {schema : List ParamSpec} {p r : Params}
    (each : p.Each fun k q => ∀ q', (∃ j, (write q).reread? = some j ∧
      read (shapeIn schema k) j = .ok q') ↔
        (∀ v ∈ q.contents, v.IsReadable) ∧ q' = q.mapValues Value.restored)
    (present : p.Each fun _ q => (write q).reread? ≠ some .null) :
    (∃ u, Json.rereadTable? (p.map write) = some u ∧ paramsWith read schema u.toList = .ok r) ↔
      (∀ q ∈ Table.values p, ∀ v ∈ q.contents, v.IsReadable) ∧
        r = p.map (Param.mapValues Value.restored) := by
  have through {u : Table String Json} (back : Json.rereadTable? (p.map write) = some u) :
      paramsWith read schema u.toList = .ok r ↔ ∀ k, Option.Rel
        (fun j q => read (shapeIn schema k) j = .ok q) (u.get? k) (r.get? k) := by
    apply paramsWith_eq_ok_iff
    intro k null
    have here := Json.rereadTable?_eq_some_iff.mp back k
    rw [Table.get?_map, null] at here
    cases set : p.get? k with
    | none => simp [set] at here
    | some q => exact present k q set (by simpa [set] using here)
  rw [exists_congr fun u => and_congr_right through]
  simp only [Json.rereadTable?_eq_some_iff]
  rw [Table.exists_rel_iff, ← Table.rel_iff_eq_map]
  refine forall_congr' fun k => ?_
  rw [Table.get?_map]
  cases set : p.get? k with
  | none => cases r.get? k <;> simp
  | some q => cases r.get? k <;> simp [each k q set]

namespace Param

variable {shape : Shape} {q q' : Param}

/-- A parameter that is not a condition is read back with its values. -/
theorem ofPlainJson_reread_iff (fits : q.Fits shape) (plain : shape ≠ .condition) :
    (∃ j, q.toPlainJson.reread? = some j ∧ ofPlainJson shape j = .ok q') ↔
      (∀ v ∈ q.contents, v.IsReadable) ∧ q' = q.mapValues Value.restored := by
  -- what has no values in it is written as it is read
  have steady (same : q.toPlainJson.reread? = some q.toPlainJson)
      (fixed : q.mapValues Value.restored = q) (none : q.contents = []) :
      (∃ j, q.toPlainJson.reread? = some j ∧ ofPlainJson shape j = .ok q') ↔
        (∀ v ∈ q.contents, v.IsReadable) ∧ q' = q.mapValues Value.restored := by
    have back := ofPlainJson_toPlainJson fits (by simp [none]) plain
    simp [same, back, fixed, none, eq_comm]
  cases fits with
  | @value kind v =>
      have read (j : Json) : ofPlainJson (.value kind) j = .ok q' ↔
          ∃ w, Value.ofJson j = .ok w ∧ q' = .value w := by
        rw [ofPlainJson]
        cases Value.ofJson j <;> simp [Except.map, eq_comm]
      have found {w : Value} := Value.returned?_iff_restored (v := v) (w := w)
      simp only [read, toPlainJson, contents, mapValues, List.mem_singleton, forall_eq]
      constructor
      · rintro ⟨j, back, w, here, rfl⟩
        obtain ⟨readable, rfl⟩ := found.mp ⟨j, back, here⟩
        exact ⟨readable, rfl⟩
      · rintro ⟨readable, rfl⟩
        obtain ⟨j, back, here⟩ := found.mpr ⟨readable, rfl⟩
        exact ⟨j, back, _, here, rfl⟩
  | name | bool | text => exact steady rfl rfl rfl
  | @integer n small =>
      refine steady (Json.reread?_natural ?_) rfl rfl
      have top : Param.greatestInteger = 9223372036854775807 := rfl
      have most : Json.maxWord = 18446744073709551615 := rfl
      omega
  | @names l =>
      refine steady ?_ rfl rfl
      rw [toPlainJson, Json.reread?, Json.rereadItems?_strings]
      rfl
  | condition => exact absurd rfl plain
  | @values t =>
      have read (u : Table String Json) : ofPlainJson .values (.object u.toList) = .ok q' ↔
          ∃ t', valuesOfJson u.toList = .ok t' ∧ q' = .values t' := by
        rw [ofPlainJson]
        cases valuesOfJson u.toList <;> simp [Except.map, eq_comm]
      simp only [toPlainJson, contents, mapValues, Json.reread?_object, Option.map_eq_some_iff]
      constructor
      · rintro ⟨-, ⟨u, back, rfl⟩, here⟩
        obtain ⟨t', inner, rfl⟩ := (read u).mp here
        obtain ⟨readable, rfl⟩ := valuesOfJson_reread_iff.mp ⟨u, back, inner⟩
        exact ⟨readable, rfl⟩
      · rintro ⟨readable, rfl⟩
        obtain ⟨u, back, here⟩ := valuesOfJson_reread_iff.mpr ⟨readable, rfl⟩
        exact ⟨_, ⟨u, back, rfl⟩, (read u).mpr ⟨_, here, rfl⟩⟩

theorem reread?_whole_ne_null (n : Int) : (Json.whole n).reread? ≠ some .null := by
  simp [Json.whole, Json.reread?, Json.Number.reread?, Json.Number.parsed, Json.Node.toJson?]

/-- A written parameter is not read back as `null`. -/
theorem reread?_toPlainJson_ne_null (fits : q.Fits shape) (plain : shape ≠ .condition) :
    q.toPlainJson.reread? ≠ some .null := by
  cases fits with
  | @value kind v => exact v.reread?_toJson_ne_null
  | integer => exact reread?_whole_ne_null _
  | condition => exact absurd rfl plain
  | _ => simp [toPlainJson, Json.reread?]

end Param

namespace Params

variable {p : Params} {name : String} (f : Value → Value)

@[simp] theorem map_insert (q : Param) :
    Table.map (p.insert name q) (Param.mapValues f) =
      (p.map (Param.mapValues f)).insert name (q.mapValues f) := by
  apply Table.ext
  intro k
  simp only [Table.get?_map, Table.get?_insert]
  split <;> rfl

@[simp] theorem map_empty : Table.map ({} : Params) (Param.mapValues f) = {} := rfl

@[simp] theorem map_putValue (v : Option Value) :
    Table.map (p.putValue name v) (Param.mapValues f) =
      Params.putValue (p.map (Param.mapValues f)) name (v.map f) := by
  cases v with
  | none => rfl
  | some v => exact map_insert f _

@[simp] theorem map_putName {α : Type} [Named α] (a : Option α) :
    Table.map (p.putName name a) (Param.mapValues f) =
      Params.putName (p.map (Param.mapValues f)) name a := by
  cases a with
  | none => rfl
  | some a => exact map_insert f _

@[simp] theorem map_putText (s : String) :
    Table.map (p.putText name s) (Param.mapValues f) =
      Params.putText (p.map (Param.mapValues f)) name s := by
  unfold putText
  split
  · rfl
  · exact map_insert f _

theorem map_putCondition (c : Condition) :
    Table.map (putCondition {} c) (Param.mapValues f) = putCondition {} (c.mapValues f) := by
  unfold putCondition Condition.mapValues
  by_cases turned : c.invert <;> simp [turned, Param.mapValues]

end Params

namespace Param

variable {shape : Shape} {q q' : Param}

/-- A condition is read back with its operands. -/
theorem ofJson_condition_reread_iff (block : BlockId) {c : Condition} :
    (∃ j, (condition c).toJson.reread? = some j ∧ ofJson block .condition j = .ok q') ↔
      (∀ v ∈ (condition c).contents, v.IsReadable) ∧
        q' = (condition c).mapValues Value.restored := by
  have fields {p : Params} := paramsWith_reread_iff (p := Params.putCondition {} c) (r := p)
    (fun k q here q' => ofPlainJson_reread_iff (Params.suits_putCondition c k q here)
      (Condition.shapeIn_schema_ne k))
    (fun k q here => reread?_toPlainJson_ne_null (Params.suits_putCondition c k q here)
      (Condition.shapeIn_schema_ne k))
  have operands : (∀ q ∈ Table.values (Params.putCondition {} c), ∀ v ∈ q.contents, v.IsReadable) ↔
      ∀ v ∈ (condition c).contents, v.IsReadable := by
    simp only [Table.mem_values_iff]
    constructor
    · intro each v hv
      rw [contents, List.mem_append, Option.mem_toList, Option.mem_toList] at hv
      rcases hv with left | right
      · exact each (.value v) ⟨"left", by simp [Params.putCondition, left]⟩ v (by simp [contents])
      · exact each (.value v) ⟨"right", by simp [Params.putCondition, right]⟩ v (by simp [contents])
    · rintro each q ⟨k, here⟩ v hv
      exact each v (Params.contents_putCondition c k q here v hv)
  rw [operands, Params.map_putCondition] at fields
  have read (u : Table String Json) : ofJson block .condition (.object u.toList) = .ok q' ↔
      ∃ p, paramsWith ofPlainJson Condition.schema u.toList = .ok p ∧
        q' = .condition p.toCondition := by
    rw [ofJson]
    cases paramsWith ofPlainJson Condition.schema u.toList <;> simp [eq_comm]
  simp only [toJson, Json.reread?_object, Option.map_eq_some_iff]
  constructor
  · rintro ⟨-, ⟨u, back, rfl⟩, here⟩
    obtain ⟨p, inner, rfl⟩ := (read u).mp here
    obtain ⟨readable, rfl⟩ := fields.mp ⟨u, back, inner⟩
    exact ⟨readable, by rw [Params.toCondition_putCondition, mapValues]⟩
  · rintro ⟨readable, rfl⟩
    obtain ⟨u, back, here⟩ := fields.mpr ⟨readable, rfl⟩
    refine ⟨_, ⟨u, back, rfl⟩, (read u).mpr ⟨_, here, ?_⟩⟩
    rw [Params.toCondition_putCondition, mapValues]

/-- **A parameter of the expected shape is read back with its values.** -/
theorem ofJson_reread_iff (block : BlockId) (fits : q.Fits shape) :
    (∃ j, q.toJson.reread? = some j ∧ ofJson block shape j = .ok q') ↔
      (∀ v ∈ q.contents, v.IsReadable) ∧ q' = q.mapValues Value.restored := by
  by_cases nested : shape = .condition
  · subst nested
    cases fits with
    | condition => exact ofJson_condition_reread_iff block
  · have written : q.toJson = q.toPlainJson := by
      cases fits <;> first | rfl | exact absurd rfl nested
    have read (j : Json) : ofJson block shape j = ofPlainJson shape j := by
      rw [ofJson]
      exact fun _ h _ => nested h
    simp only [written, read]
    exact ofPlainJson_reread_iff fits nested

theorem reread?_toJson_ne_null (fits : q.Fits shape) : q.toJson.reread? ≠ some .null := by
  by_cases nested : shape = .condition
  · subst nested
    cases fits with
    | condition => simp [toJson, Json.reread?]
  · have written : q.toJson = q.toPlainJson := by
      cases fits <;> first | rfl | exact absurd rfl nested
    rw [written]
    exact reread?_toPlainJson_ne_null fits nested

end Param

theorem Param.mapValues_eq_self_iff (f : Value → Value) (q : Param) :
    q.mapValues f = q ↔ ∀ v ∈ q.contents, f v = v := by
  have operand (o : Option Value) : o.map f = o ↔ ∀ v, o = some v → f v = v := by
    cases o <;> simp
  cases q with
  | condition c =>
      obtain ⟨check, left, right, invert⟩ := c
      simp [mapValues, Condition.mapValues, contents, operand, or_imp, forall_and]
  | values t => simp [mapValues, contents, Table.map_eq_self_iff]
  | _ => simp [mapValues, contents]

namespace Instruction

/-- The instruction with its values replaced. -/
def mapValues (f : Value → Value) : Instruction → Instruction
  | .if_ c => .if_ (c.mapValues f)
  | .repeat_ r =>
    .repeat_ { r with
      count := r.count.map f, list := r.list.map f, condition := r.condition.map (·.mapValues f) }
  | .target t => .target { t with radius := t.radius.map f, name := t.name.map f }
  | .variable_ v => .variable_ { v with value := v.value.map f, extra := v.extra.map f }
  | .math m => .math { m with left := m.left.map f, right := m.right.map f }
  | .text t =>
    .text { t with
      input := t.input.map f, argument := t.argument.map f, replacement := t.replacement.map f }
  | .message v => .message (v.map f)
  | .teleport v => .teleport (v.map f)
  | .sideEffect s => .sideEffect { s with arguments := s.arguments.map f }
  | .delay v => .delay (v.map f)
  | .return_ v => .return_ (v.map f)
  | i => i

theorem blockType_mapValues (f : Value → Value) (i : Instruction) :
    (i.mapValues f).blockType = i.blockType := by
  cases i <;> rfl

/-- Replacing the values of an instruction replaces them in its parameters. -/
theorem toParams_mapValues (f : Value → Value) (i : Instruction) :
    (i.mapValues f).toParams = i.toParams.map (Param.mapValues f) := by
  cases i with
  | if_ c => exact (Params.map_putCondition f c).symm
  | repeat_ r =>
      obtain ⟨mode, count, list, condition, isAsync, interval, maxIterations⟩ := r
      cases condition <;> cases maxIterations <;> cases isAsync <;> by_cases one : interval = 1 <;>
        simp [mapValues, toParams, one, Param.mapValues]
  | sideEffect s =>
      have vacant : (s.arguments.map f).isEmpty = s.arguments.isEmpty := List.isEmpty_map
      simp only [mapValues, toParams, vacant]
      split <;> simp [Param.mapValues]
  | function head =>
      by_cases none : head.parameters.isEmpty <;>
        simp [mapValues, toParams, none, Param.mapValues]
  | callFunction call =>
      obtain ⟨function, arguments, result⟩ := call
      cases result <;> simp [mapValues, toParams]
  | _ => simp [mapValues, toParams]

/-- **An instruction is read back with its values**, in its normal spelling. -/
theorem ofJson_reread_iff (block : BlockId) (i : Instruction) {p : Params} :
    (∃ u, Json.rereadTable? (i.toParams.map Param.toJson) = some u ∧
        Params.ofJson block i.blockType.schema u.toList = .ok p) ↔
      (∀ v ∈ i.contents, v.IsReadable) ∧ p = (i.mapValues Value.restored).toParams := by
  have read (members : List (String × Json)) :
      Params.ofJson block i.blockType.schema members = .ok p ↔
        paramsWith (Param.ofJson block) i.blockType.schema members = .ok p := by
    rw [Params.ofJson]
    cases paramsWith (Param.ofJson block) i.blockType.schema members <;> simp
  have inside : (∀ v ∈ i.contents, v.IsReadable) ↔
      ∀ q ∈ Table.values i.toParams, ∀ v ∈ q.contents, v.IsReadable := by
    simp only [contents, List.mem_flatMap]
    constructor
    · intro h q hq v hv
      exact h v ⟨q, hq, hv⟩
    · rintro h v ⟨q, hq, hv⟩
      exact h q hq v hv
  simp only [read]
  rw [inside, toParams_mapValues]
  exact paramsWith_reread_iff
    (fun k q here q' => Param.ofJson_reread_iff block (i.suits_toParams k q here))
    (fun k q here => Param.reread?_toJson_ne_null (i.suits_toParams k q here))

/-- Replacing the values of an instruction changes it unless they are replaced by themselves. -/
theorem normal_mapValues_iff (f : Value → Value) (i : Instruction) :
    (i.mapValues f).normal = i.normal ↔ ∀ v ∈ i.contents, f v = v := by
  have params : (i.mapValues f).toParams = i.toParams ↔ ∀ v ∈ i.contents, f v = v := by
    rw [toParams_mapValues, Table.map_eq_self_iff]
    simp only [Param.mapValues_eq_self_iff, contents, List.mem_flatMap]
    constructor
    · rintro h v ⟨q, hq, hv⟩
      exact h q hq v hv
    · intro h q hq v hv
      exact h v ⟨q, hq, hv⟩
  rw [← params]
  constructor
  · intro same
    -- the two spellings that are made normal are not about values
    have same : i.mapValues f = i := by
      cases i with
      | repeat_ r =>
          obtain ⟨mode, count, list, condition, isAsync, interval, maxIterations⟩ := r
          simpa [mapValues, normal] using same
      | callFunction c => rfl
      | _ => exact same
    rw [same]
  · intro same
    rw [← ofParams_toParams, ← ofParams_toParams, same, blockType_mapValues]

end Instruction

end Blockwork
