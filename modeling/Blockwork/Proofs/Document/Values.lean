import Blockwork.Document.Value
import Blockwork.Proofs.Binary
import Blockwork.Proofs.Params

/-!
# Values and parameters read back from documents

Decoding inverts encoding, for values and for the parameters of blocks.  A value is written as text,
as a number, or as an object that names its kind; which of the three is determined by the value
(`Value.toJson_cases`), and the three are told apart when it is read.

## What is load-bearing

* `Value.membersWith` describes a compound value, its numbers written in any way.  The decoder reads
  the description as that value exactly if it reads each number as that number
  (`Value.ofTagged?_membersWith_iff`), so what becomes of numbers can be decided elsewhere.
* `Param.Fits`: a parameter that has the shape it is declared with.  Only such a parameter is
  decoded by the rule it was encoded by.
-/

namespace Blockwork

/-! ## Number templates -/

/-- What a number that is not finite is shown as is read as that number. -/
theorem Decimal.float?_display {x : Float} (h : ¬ Binary.isFinite x) :
    Numeral.float? (Text.trim (display x)) = some x := by
  cases reading : Binary.read x with
  | finite s m q => exact absurd (Binary.isFinite_iff.mpr ⟨s, m, q, reading⟩) h
  | nan =>
      have shown : display x = "NaN" := by simp only [display, plain, plainReading, reading]
      rw [shown, Binary.eq_nan_of_read reading]
      rfl
  | infinite s =>
      have shown : display x = signed s "inf" := by
        simp only [display, plain, plainReading, reading]
      rw [shown, Binary.eq_ofMagnitude_of_read reading]
      cases s <;> rfl

namespace NumberText

theorem ext {m n : NumberText} (raw : m.raw = n.raw) (literal : m.literal = n.literal) : m = n := by
  obtain ⟨r, l, h⟩ := m
  obtain ⟨r', l', h'⟩ := n
  obtain rfl : r = r' := raw
  obtain rfl : l = l' := literal
  rfl

@[simp] theorem raw_ofFloat (x : Float) : (ofFloat x).raw = Decimal.display x := by rw [ofFloat]

@[simp] theorem literal_ofFloat (x : Float) : (ofFloat x).literal = some x := by rw [ofFloat]

@[simp] theorem raw_ofRaw (raw : String) : (ofRaw raw).raw = raw := by rw [ofRaw]

@[simp] theorem literal_ofRaw (raw : String) :
    (ofRaw raw).literal = Numeral.float? (Text.trim raw) := by rw [ofRaw]

/-- A number template is its number's own text, or is read as that number. -/
theorem eq_ofFloat_or_ofRaw (n : NumberText) :
    (∃ x, n = ofFloat x ∧ Binary.isFinite x) ∨ ofRaw n.raw = n := by
  rcases n.linked with read | shown
  · refine .inr (ext (raw_ofRaw _) ?_)
    rw [literal_ofRaw, read]
  · obtain ⟨x, literal, raw⟩ := Option.map_eq_some_iff.mp shown
    by_cases finite : Binary.isFinite x
    · refine .inl ⟨x, ext ?_ ?_, finite⟩
      · rw [raw_ofFloat, raw]
      · rw [literal_ofFloat, literal]
    · refine .inr (ext (raw_ofRaw _) ?_)
      rw [literal_ofRaw, literal, ← raw, Decimal.float?_display finite]

end NumberText

/-! ## Tagged values -/

/-- A table's members are found as they are in the table. -/
theorem Json.member?_toList (t : Table String Json) (name : String) :
    Json.member? t.toList name = t.get? name := by
  unfold Json.member? Table.toList Table.get?
  induction t.entries with
  | nil => rfl
  | cons e rest ih =>
      obtain ⟨k, v⟩ := e
      rw [List.lookup_cons, Table.find]
      by_cases same : k = name
      · simp [same]
      · have other : (name == k) = false := beq_false_of_ne (Ne.symm same)
        simp only [other, if_neg same, ih]

theorem Json.real_of_isFinite {x : Float} (h : Binary.isFinite x) :
    Json.real x = .number (.real x) := by
  obtain ⟨s, m, q, reading⟩ := Binary.isFinite_iff.mp h
  simp only [Json.real, Decimal.document?, reading]

theorem Json.toFloat?_real {x : Float} (h : Binary.isFinite x) : (Json.real x).toFloat? = some x := by
  rw [Json.real_of_isFinite h, Json.toFloat?, Json.Number.toFloat]

theorem Json.toSingle?_real_widen {y : Float32} (h : Binary.isFiniteSingle y) :
    (Json.real (Binary.widen y)).toSingle? = some y := by
  rw [Json.real_of_isFinite (Binary.isFinite_widen h), Json.toSingle?, Json.Number.toSingle,
    Binary.narrow_widen h]

@[simp] theorem Json.toNatBelow?_natural {bound n : Nat} (h : n < bound) :
    (Json.natural n).toNatBelow? bound = some n := by
  simp [Json.natural, Json.whole, Json.toNatBelow?, h]

namespace Value

/-- The doubles in a compound value. -/
def doubles : Value → List Float
  | .location p => [p.x, p.y, p.z]
  | .particle p => [p.spread]
  | _ => []

/-- The singles in a compound value. -/
def singles : Value → List Float32
  | .location p => [p.yaw, p.pitch]
  | .sound s => [s.volume, s.pitch]
  | _ => []

/-- The members that describe a value, its numbers with a fraction part given by `write`. -/
def detailsWith (write : Float → Json) : Value → List (String × Json)
  | .location p =>
    (p.world.map fun w => ("world", Json.string w)).toList ++
      [("x", write p.x), ("y", write p.y), ("z", write p.z), ("yaw", write (Binary.widen p.yaw)),
       ("pitch", write (Binary.widen p.pitch))]
  | .sound s =>
    [("sound", .string s.sound), ("volume", write (Binary.widen s.volume)),
     ("pitch", write (Binary.widen s.pitch))]
  | .particle p =>
    [("particle", .string p.particle), ("count", .natural p.count.toNat), ("spread", write p.spread)]
  | v => v.details

theorem details_eq (v : Value) : v.details = v.detailsWith Json.real := by
  cases v <;> rfl

/-- The members of the object that describes a value, by name. -/
def membersWith (write : Float → Json) (v : Value) : Table String Json :=
  Table.ofList (("kind", Json.string (Named.name v.kind)) :: v.detailsWith write)

theorem nodup_membersWith (write : Float → Json) (v : Value) :
    ((("kind", Json.string (Named.name v.kind)) :: v.detailsWith write).map Prod.fst).Nodup := by
  cases v with
  | location p => cases h : p.world <;> simp [detailsWith, h]
  | item i => cases h : i.displayName <;> simp [detailsWith, details, h]
  | _ => simp [detailsWith, details]

theorem get?_membersWith (write : Float → Json) (v : Value) (name : String) :
    (v.membersWith write).get? name =
      Table.find name (("kind", Json.string (Named.name v.kind)) :: v.detailsWith write) := by
  rw [membersWith, Table.ofList, Table.get?_foldl_insert (nodup_membersWith write v), Table.get?_empty,
    Option.or_none]

/-- **A described value is read back exactly if its numbers are.**  A number template is read
anew. -/
theorem ofTagged?_membersWith_iff (write : Float → Json) (v : Value) :
    ofTagged? (v.membersWith write).toList = some v ↔
      (∀ x ∈ v.doubles, (write x).toFloat? = some x) ∧
      (∀ y ∈ v.singles, (write (Binary.widen y)).toSingle? = some y) ∧
      ∀ n, v = .number n → NumberText.ofRaw n.raw = n := by
  have member (name : String) := (Json.member?_toList (v.membersWith write) name).trans
    (get?_membersWith write v name)
  -- the members that are there, then the fields they are read into
  cases v with
  | text raw | variable_ name =>
      simp [ofTagged?, Json.textMember?, member, Table.find, detailsWith, details, kind, Named.name,
        Named.all, doubles, singles]
  | number n =>
      simp [ofTagged?, Json.textMember?, member, Table.find, detailsWith, details, kind, Named.name,
        Named.all, doubles, singles]
  | location p =>
      obtain ⟨world, x, y, z, yaw, pitch⟩ := p
      cases world <;>
        simp [ofTagged?, Json.textMember?, Json.memberOr?, member, Table.find, detailsWith, kind,
          Named.name, Named.all, doubles, singles, Json.toOptionalText?, Option.bind_eq_some_iff,
          and_assoc]
  | item i =>
      obtain ⟨material, amount, displayName⟩ := i
      cases displayName <;>
        simp [ofTagged?, Json.textMember?, Json.memberOr?, member, Table.find, detailsWith, details,
          kind, Named.name, Named.all, doubles, singles, Json.toOptionalText?, amount.toNat_lt]
  | sound s =>
      obtain ⟨sound, volume, pitch⟩ := s
      simp [ofTagged?, Json.textMember?, Json.memberOr?, member, Table.find, detailsWith, kind,
        Named.name, Named.all, doubles, singles, Option.bind_eq_some_iff]
  | particle p =>
      obtain ⟨particle, count, spread⟩ := p
      simp [ofTagged?, Json.textMember?, Json.memberOr?, member, Table.find, detailsWith, kind,
        Named.name, Named.all, doubles, singles, Option.bind_eq_some_iff, count.toNat_lt]
  | potionEffect p =>
      simp [ofTagged?, Json.textMember?, Json.memberOr?, member, Table.find, detailsWith, details,
        kind, Named.name, Named.all, doubles, singles, p.durationTicks.toNat_lt,
        p.amplifier.toNat_lt]

theorem tagged_eq (v : Value) : v.tagged = .object (v.membersWith Json.real).toList := by
  rw [tagged, details_eq, membersWith]

/-- A number written as it is shown is a JSON number, if it is finite. -/
theorem toJson_ofFloat {x : Float} (h : Binary.isFinite x) :
    (ofFloat x).toJson = .number (.real x) := by
  simp [ofFloat, NumberText.ofFloat, toJson, h]

/-- Any other number is described. -/
theorem toJson_of_ne_ofFloat {n : NumberText}
    (h : ¬ ∃ x, n = .ofFloat x ∧ Binary.isFinite x) : (number n).toJson = (number n).tagged := by
  obtain ⟨raw, literal, linked⟩ := n
  cases literal with
  | none => rfl
  | some x =>
      rw [toJson, if_neg]
      intro both
      obtain ⟨finite, shown⟩ := Bool.and_eq_true_iff.mp both
      refine h ⟨x, NumberText.ext ?_ ?_, finite⟩
      · exact (beq_iff_eq.mp shown).trans (NumberText.raw_ofFloat x).symm
      · exact (NumberText.literal_ofFloat x).symm

/-- The three forms a value has in a document. -/
theorem toJson_cases (v : Value) :
    (∃ raw, v = .text raw ∧ v.toJson = .string raw) ∨
      (∃ x, v = ofFloat x ∧ Binary.isFinite x ∧ v.toJson = .number (.real x)) ∨
      v.toJson = .object (v.membersWith Json.real).toList ∧
        ∀ n, v = .number n → NumberText.ofRaw n.raw = n := by
  cases v with
  | text raw => exact .inl ⟨raw, rfl, rfl⟩
  | number n =>
      rcases n.eq_ofFloat_or_ofRaw with ⟨x, rfl, finite⟩ | same
      · exact .inr (.inl ⟨x, rfl, finite, toJson_ofFloat finite⟩)
      · by_cases plain : ∃ x, n = .ofFloat x ∧ Binary.isFinite x
        · obtain ⟨x, rfl, finite⟩ := plain
          exact .inr (.inl ⟨x, rfl, finite, toJson_ofFloat finite⟩)
        · refine .inr (.inr ⟨?_, fun m h => ?_⟩)
          · rw [← tagged_eq, toJson_of_ne_ofFloat plain]
          · cases h
            exact same
  | _ => exact .inr (.inr ⟨tagged_eq _, fun n h => nomatch h⟩)

/-- A compound value without infinities and without what is not a number. -/
structure IsFinite (v : Value) : Prop where
  /-- Coordinates and spreads are finite. -/
  doubles : ∀ x ∈ v.doubles, Binary.isFinite x
  /-- Angles, volumes and pitches are finite. -/
  singles : ∀ y ∈ v.singles, Binary.isFiniteSingle y

theorem toJson_ne_null (v : Value) : v.toJson ≠ .null := by
  rcases v.toJson_cases with ⟨raw, -, h⟩ | ⟨x, -, -, h⟩ | ⟨h, -⟩ <;> rw [h] <;> exact Json.noConfusion

/-- **A value is read back from its document.** -/
theorem ofJson_toJson {v : Value} (finite : v.IsFinite) : ofJson v.toJson = .ok v := by
  rcases v.toJson_cases with ⟨raw, rfl, h⟩ | ⟨x, rfl, -, h⟩ | ⟨h, raw⟩
  · rw [h, ofJson]
  · rw [h, ofJson, Json.Number.toFloat]
  · have read := (ofTagged?_membersWith_iff Json.real v).mpr
      ⟨fun x hx => Json.toFloat?_real (finite.doubles x hx),
        fun y hy => Json.toSingle?_real_widen (finite.singles y hy), raw⟩
    rw [h, ofJson, read]

end Value

/-! ## Parameters -/

/-- The values in a parameter. -/
def Param.contents : Param → List Value
  | .value v => [v]
  | .condition c => c.left.toList ++ c.right.toList
  | .values t => t.values
  | _ => []

/-- A parameter of the shape that its schema gives. -/
inductive Param.Fits : Shape → Param → Prop
  | value {kind : Option ValueKind} {v : Value} : Fits (.value kind) (.value v)
  | name {names : List String} {s : String} : Fits (.name names) (.name s)
  | bool {b : Bool} : Fits .bool (.bool b)
  | integer {n : Nat} (small : (n : Int) ≤ Param.greatestInteger) : Fits .integer (.integer n)
  | text {s : String} : Fits .text (.text s)
  | names {l : List String} : Fits .names (.names l)
  | condition {c : Condition} : Fits .condition (.condition c)
  | values {t : Table String Value} : Fits .values (.values t)

theorem namesOfJson_map (l : List String) : namesOfJson (l.map .string) = .ok l := by
  induction l with
  | nil => rfl
  | cons s rest ih => rw [List.map_cons, namesOfJson, ih]; rfl

/-- Named values are read one by one. -/
theorem valuesOfJson_eq_ok_iff {members : Table String Json} {t : Table String Value} :
    valuesOfJson members.toList = .ok t ↔
      ∀ k, Option.Rel (fun j v => Value.ofJson j = .ok v) (members.get? k) (t.get? k) := by
  rw [← Table.inserts_toList_iff]
  apply Table.foldlM_eq_ok_iff
  intro e _ t u
  cases h : Value.ofJson e.2 with
  | error m => simp [bind, Except.bind]
  | ok v => simp [bind, Except.bind, pure, Except.pure]

/-- Parameters are read one by one. -/
theorem paramsWith_eq_ok_iff {read : Shape → Json → Except Misfit Param} {schema : List ParamSpec}
    {members : Table String Json} (notNull : ∀ k, members.get? k ≠ some .null) {p : Params} :
    paramsWith read schema members.toList = .ok p ↔
      ∀ k, Option.Rel (fun j q => read (shapeIn schema k) j = .ok q) (members.get? k) (p.get? k) := by
  rw [← Table.inserts_toList_iff]
  apply Table.foldlM_eq_ok_iff
  intro e he t u
  have present : e.2 ≠ .null := by
    intro null
    apply notNull e.1
    rw [← null]
    exact (members.mem_toList_iff e.1 e.2).mp he
  split
  · next null => exact absurd null present
  · cases read (shapeIn schema e.1) e.2 <;> simp

namespace Param

variable {shape : Shape} {p : Param}

theorem toJson_ne_null (p : Param) : p.toJson ≠ .null := by
  cases p with
  | value v => exact v.toJson_ne_null
  | _ => exact Json.noConfusion

/-- A parameter that is not a condition is read back from what it is written as. -/
theorem ofPlainJson_toPlainJson (fits : p.Fits shape) (finite : ∀ v ∈ p.contents, v.IsFinite)
    (plain : shape ≠ .condition) : ofPlainJson shape p.toPlainJson = .ok p := by
  cases fits with
  | value => rw [toPlainJson, ofPlainJson, Value.ofJson_toJson (finite _ (by simp [contents]))]; rfl
  | name | bool | text => rfl
  | integer small =>
      rw [toPlainJson, Json.whole, ofPlainJson, Json.Number.toInteger, if_pos small]
  | names => rw [toPlainJson, ofPlainJson, namesOfJson_map]; rfl
  | condition => exact absurd rfl plain
  | @values t =>
      have read : valuesOfJson (t.map Value.toJson).toList = .ok t := by
        rw [valuesOfJson_eq_ok_iff]
        intro k
        rw [Table.get?_map]
        cases here : t.get? k with
        | none => exact .none
        | some v =>
            have inside : v ∈ t.values := List.mem_map.mpr ⟨(k, v), (t.mem_toList_iff k v).mpr here, rfl⟩
            exact .some (Value.ofJson_toJson (finite v inside))
      rw [toPlainJson, ofPlainJson, read]
      rfl

end Param

namespace Params

/-- Every parameter has a property. -/
def Each (P : String → Param → Prop) (p : Params) : Prop := ∀ k q, p.get? k = some q → P k q

namespace Each

variable {P : String → Param → Prop} {p : Params} {name : String}

theorem empty : Each P {} := fun _ _ h => nomatch h

theorem insert (h : Each P p) {q : Param} (new : P name q) : Each P (p.insert name q) := by
  intro k r here
  rw [Table.get?_insert] at here
  split at here
  · next same =>
    cases here
    exact same ▸ new
  · exact h k r here

theorem putValue (h : Each P p) {v : Option Value} (new : ∀ w, v = some w → P name (.value w)) :
    Each P (p.putValue name v) := by
  cases v with
  | none => exact h
  | some v => exact h.insert (new v rfl)

theorem putName (h : Each P p) {α : Type} [Named α] {a : Option α}
    (new : ∀ s, P name (.name s)) : Each P (p.putName name a) := by
  cases a with
  | none => exact h
  | some a => exact h.insert (new _)

theorem putText (h : Each P p) {s : String} (new : P name (.text s)) :
    Each P (p.putText name s) := by
  unfold Params.putText
  split
  · exact h
  · exact h.insert new

theorem insertIf (h : Each P p) (c : Prop) [Decidable c] {q : Param} (new : P name q) :
    Each P (if c then p.insert name q else p) := by
  split
  · exact h.insert new
  · exact h

theorem insertUnless (h : Each P p) (c : Prop) [Decidable c] {q : Param} (new : P name q) :
    Each P (if c then p else p.insert name q) := by
  split
  · exact h
  · exact h.insert new

end Each

/-- Parameters that all have the shape that a schema gives them. -/
def Suits (schema : List ParamSpec) : Params → Prop := Each fun k q => q.Fits (shapeIn schema k)

/-- The fields of a condition have their shapes. -/
theorem suits_putCondition (c : Condition) : Suits Condition.schema (putCondition {} c) :=
  (((Each.empty.putName fun _ => .name).putValue fun _ _ => .value).putValue fun _ _ => .value).insertIf
    c.invert .bool

/-- The values in the fields of a condition are its operands. -/
theorem contents_putCondition (c : Condition) :
    Each (fun _ q => ∀ v ∈ q.contents, v ∈ (Param.condition c).contents) (putCondition {} c) := by
  have left (w : Value) (set : c.left = some w) :
      ∀ v ∈ (Param.value w).contents, v ∈ (Param.condition c).contents := by
    simp [Param.contents, set]
  have right (w : Value) (set : c.right = some w) :
      ∀ v ∈ (Param.value w).contents, v ∈ (Param.condition c).contents := by
    simp [Param.contents, set]
  have none (s : String) : ∀ v ∈ (Param.name s).contents, v ∈ (Param.condition c).contents :=
    fun v hv => nomatch hv
  exact (((Each.empty.putName none).putValue left).putValue right).insertIf c.invert
    fun v hv => nomatch hv

end Params

/-- No field of a condition is itself a condition. -/
theorem Condition.shapeIn_schema_ne (k : String) : shapeIn Condition.schema k ≠ .condition := by
  unfold shapeIn
  split
  · next spec found =>
    have listed := List.mem_of_find?_eq_some found
    simp only [schema, ParamSpec.needed, ParamSpec.optional, List.mem_cons,
      List.not_mem_nil, or_false] at listed
    rcases listed with rfl | rfl | rfl | rfl <;> exact Shape.noConfusion
  · exact Shape.noConfusion

namespace Param

/-- The fields of a condition are read back. -/
theorem paramsWith_putCondition {c : Condition}
    (finite : ∀ v ∈ (Param.condition c).contents, v.IsFinite) :
    paramsWith ofPlainJson Condition.schema ((Params.putCondition {} c).map toPlainJson).toList =
      .ok (Params.putCondition {} c) := by
  have read (k : String) (q : Param) (here : (Params.putCondition {} c).get? k = some q) :
      ofPlainJson (shapeIn Condition.schema k) q.toPlainJson = .ok q :=
    ofPlainJson_toPlainJson (Params.suits_putCondition c k q here)
      (fun v hv => finite v (Params.contents_putCondition c k q here v hv))
      (Condition.shapeIn_schema_ne k)
  rw [paramsWith_eq_ok_iff]
  · intro k
    rw [Table.get?_map]
    cases here : (Params.putCondition {} c).get? k with
    | none => exact .none
    | some q => exact .some (read k q here)
  · intro k null
    rw [Table.get?_map] at null
    obtain ⟨q, here, written⟩ := Option.map_eq_some_iff.mp null
    have fits := Params.suits_putCondition c k q here
    cases q with
    | value v => exact v.toJson_ne_null written
    | condition c =>
        generalize shape : shapeIn Condition.schema k = f at fits
        cases fits
        exact Condition.shapeIn_schema_ne k shape
    | _ => exact Json.noConfusion written

/-- **A parameter of the expected shape is read back from its document.** -/
theorem ofJson_toJson (block : BlockId) (fits : p.Fits shape) (finite : ∀ v ∈ p.contents, v.IsFinite) :
    ofJson block shape p.toJson = .ok p := by
  by_cases nested : shape = .condition
  · subst nested
    cases fits with
    | condition =>
        rw [toJson, ofJson, paramsWith_putCondition finite]
        simp only [Params.toCondition_putCondition]
  · have written : p.toJson = p.toPlainJson := by
      cases fits <;> first | rfl | exact absurd rfl nested
    rw [written, ofJson]
    · exact ofPlainJson_toPlainJson fits finite nested
    · exact fun _ h _ => nested h

end Param

/-- **Parameters of the expected shapes are read back from their document.** -/
theorem Params.ofJson_toJson (block : BlockId) {schema : List ParamSpec} {p : Params}
    (suits : p.Suits schema) (finite : p.Each fun _ q => ∀ v ∈ q.contents, v.IsFinite) :
    Params.ofJson block schema (p.map Param.toJson).toList = .ok p := by
  have read : paramsWith (Param.ofJson block) schema (p.map Param.toJson).toList = .ok p := by
    rw [paramsWith_eq_ok_iff]
    · intro k
      rw [Table.get?_map]
      cases here : p.get? k with
      | none => exact .none
      | some q => exact .some (q.ofJson_toJson block (suits k q here) (finite k q here))
    · intro k null
      rw [Table.get?_map] at null
      obtain ⟨q, -, written⟩ := Option.map_eq_some_iff.mp null
      exact q.toJson_ne_null written
  rw [Params.ofJson, read]

end Blockwork
