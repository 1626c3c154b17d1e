import Blockwork.Document.Script
import Blockwork.Proofs.Document.Values
import Blockwork.Proofs.Grammar
import Mathlib.Data.List.Forall2

/-!
# Which documents are scripts

Decoding a document is all or nothing.  `ScriptDocument.toScript_exact` says of every document what
it takes to be decoded (`BlockDocument.Acceptable`): each of its blocks, at every depth, has a known
type and parameters of the shapes that the schema of the type admits (`Shape.Admits`), and no
identity occurs twice.  The script then has the lines of the document in the order of their numbers,
and of each line the very same trees.  Otherwise the error is about the first block that offends in
that order, and says what is wrong with it (`BlockDocument.Offends`).

## What is load-bearing

* The decoder carries the identities it has met.  Here it is followed with the *documents* it has
  met instead (`met`), so what it carries is determined by the blocks before it in pre-order, and
  acceptance of everything so far is the invariant (`verdict_decode`).
* `Shape.admits_iff`: the shapes of JSON that the schema admits are exactly those that are read.  A
  condition is the only shape whose members have shapes of their own, and none of them is a
  condition again, so one level of nesting is all there is.
* `LineDocument.isStableSort_inOrder`: three properties that pin the order of the lines.
-/

namespace Blockwork

/-! ## Whole numbers in text -/

namespace Text

/-- Decimal digits, at least one. -/
def AreDigits (cs : List Char) : Prop := cs ≠ [] ∧ ∀ c ∈ cs, c.isDigit

/-- A whole number as it may be written: digits, and a sign that may be left out. -/
inductive Denotes : List Char → Int → Prop
  | plain {cs : List Char} (digits : AreDigits cs) : Denotes cs (digitsValue cs)
  | plus {cs : List Char} (digits : AreDigits cs) : Denotes ('+' :: cs) (digitsValue cs)
  | minus {cs : List Char} (digits : AreDigits cs) : Denotes ('-' :: cs) (-(digitsValue cs : Int))

theorem naturalChars?_eq_some_iff {cs : List Char} {n : Nat} :
    naturalChars? cs = some n ↔ AreDigits cs ∧ digitsValue cs = n := by
  simp [naturalChars?, AreDigits]

/-- A sign is not a digit. -/
theorem not_areDigits_sign {c : Char} {cs : List Char} (sign : c = '-' ∨ c = '+') :
    ¬ AreDigits (c :: cs) := by
  rintro ⟨-, all⟩
  have digit := all c (List.mem_cons_self ..)
  rcases sign with rfl | rfl <;> exact absurd digit (by decide)

/-- **A text is read as a whole number if it denotes one within the bounds.** -/
theorem signed?_eq_some_iff {bound : Nat} (positive : 0 < bound) {s : String} {n : Int} :
    signed? bound s = some n ↔ Denotes s.toList n ∧ -(bound : Int) ≤ n ∧ n < bound := by
  unfold signed?
  constructor
  · intro read
    split at read
    · next cs text =>
      split at read
      · next m value =>
        obtain ⟨digits, rfl⟩ := naturalChars?_eq_some_iff.mp value
        obtain ⟨small, same⟩ := Option.ite_none_right_eq_some.mp read
        obtain rfl := Option.some_inj.mp same
        exact ⟨text ▸ .minus digits, by omega, by omega⟩
      · cases read
    · extract_lets cs at read
      split at read
      · next m value =>
        obtain ⟨digits, rfl⟩ := naturalChars?_eq_some_iff.mp value
        obtain ⟨small, same⟩ := Option.ite_none_right_eq_some.mp read
        obtain rfl := Option.some_inj.mp same
        refine ⟨?_, by omega, by omega⟩
        unfold cs at *
        split at digits
        · next rest text => exact text ▸ .plus digits
        · exact .plain digits
      · cases read
  · rintro ⟨denotes, least, greatest⟩
    generalize s.toList = text at denotes
    cases denotes with
    | minus digits =>
        have value := naturalChars?_eq_some_iff.mpr ⟨digits, rfl⟩
        simp only [value]
        rw [if_pos (by omega)]
    | plus digits =>
        have value := naturalChars?_eq_some_iff.mpr ⟨digits, rfl⟩
        split
        · next minus => cases minus
        · simp only [value]
          rw [if_pos (by omega)]
    | plain digits =>
        have value := naturalChars?_eq_some_iff.mpr ⟨digits, rfl⟩
        split
        · exact absurd digits (not_areDigits_sign (.inl rfl))
        · extract_lets cs
          have same : cs = text := by
            unfold cs
            split
            · exact absurd digits (not_areDigits_sign (.inr rfl))
            · rfl
          rw [same, value]
          exact if_pos (by omega)

end Text

/-! ## Going through a list until something fails -/

section

variable {α β ε : Type} {f : β → α → Except ε β} {l : List α} {b : β}

theorem foldlM_cons_eq_ok {a : α} {c : β} (first : f b a = .ok c) :
    (a :: l).foldlM f b = l.foldlM f c := by
  rw [List.foldlM_cons, first]
  rfl

theorem foldlM_cons_eq_error {a : α} {e : ε} (first : f b a = .error e) :
    (a :: l).foldlM f b = .error e := by
  rw [List.foldlM_cons, first]
  rfl

/-- The first failure, if there is one; the items before it do not fail. -/
theorem foldlM_cases {P : α → Prop} (step : ∀ b a, P a ↔ ∃ c, f b a = .ok c) :
    ((∃ c, l.foldlM f b = .ok c) ∧ ∀ a ∈ l, P a) ∨
      ∃ before a after c e, l = before ++ a :: after ∧ (∀ x ∈ before, P x) ∧ f c a = .error e ∧
        l.foldlM f b = .error e := by
  induction l generalizing b with
  | nil => exact .inl ⟨⟨b, rfl⟩, fun a none => (nomatch none)⟩
  | cons a l ih =>
      cases first : f b a with
      | error e =>
          exact .inr ⟨[], a, l, b, e, rfl, fun x none => (nomatch none), first,
            foldlM_cons_eq_error first⟩
      | ok c =>
          have here : P a := (step b a).mpr ⟨c, first⟩
          rw [foldlM_cons_eq_ok first]
          rcases ih (b := c) with ⟨done, each⟩ | ⟨before, x, after, d, e, rfl, each, failed, done⟩
          · exact .inl ⟨done, List.forall_mem_cons.mpr ⟨here, each⟩⟩
          · exact .inr ⟨a :: before, x, after, d, e, rfl, List.forall_mem_cons.mpr ⟨here, each⟩,
              failed, done⟩

/-- Nothing fails if no item does. -/
theorem exists_foldlM_eq_ok_iff {P : α → Prop} (step : ∀ b a, P a ↔ ∃ c, f b a = .ok c) :
    (∃ c, l.foldlM f b = .ok c) ↔ ∀ a ∈ l, P a := by
  rcases foldlM_cases (l := l) (b := b) step with ⟨done, each⟩ | ⟨before, a, after, c, e, rfl, -,
    failed, done⟩
  · exact iff_of_true done each
  · refine iff_of_false ?_ fun each => ?_
    · rintro ⟨d, other⟩
      cases done.symm.trans other
    · obtain ⟨d, other⟩ := (step c a).mp (each a (by simp))
      cases failed.symm.trans other

end

/-! ## Shapes -/

/-- JSON that describes a value: a text, a number, a truth value, or an object with the fields of a
kind of value. -/
inductive Value.Shaped : Json → Prop
  | text {s : String} : Shaped (.string s)
  | number {n : Json.Number} : Shaped (.number n)
  | bool {b : Bool} : Shaped (.bool b)
  | object {members : List (String × Json)} {v : Value} (fields : ofTagged? members = some v) :
      Shaped (.object members)

/-- JSON of the shape that a schema asks for.  What reads as a number or a truth value may be given
as text, and a list of names as one text. -/
inductive Shape.Admits : Shape → Json → Prop
  | value {kind : Option ValueKind} {json : Json} (shaped : Value.Shaped json) :
      Admits (.value kind) json
  | name {names : List String} {s : String} : Admits (.name names) (.string s)
  | bool {b : Bool} : Admits .bool (.bool b)
  | boolText {s : String} : Admits .bool (.string s)
  | integer {n : Json.Number} : Admits .integer (.number n)
  | integerText {s : String} {n : Int} (denotes : Text.Denotes (Text.trim s).toList n)
      (least : Param.leastInteger ≤ n) (greatest : n ≤ Param.greatestInteger) :
      Admits .integer (.string s)
  | text {s : String} : Admits .text (.string s)
  | textNumber {n : Json.Number} : Admits .text (.number n)
  | names {items : List Json} (each : ∀ item ∈ items, ∃ s, item = .string s) :
      Admits .names (.array items)
  | namesText {s : String} : Admits .names (.string s)
  | values {members : List (String × Json)} (each : ∀ m ∈ members, Value.Shaped m.2) :
      Admits .values (.object members)
  | condition {members : List (String × Json)}
      (each : ∀ m ∈ members, m.2 ≠ .null → Admits (shapeIn Condition.schema m.1) m.2) :
      Admits .condition (.object members)

theorem Value.shaped_iff {json : Json} : Shaped json ↔ ∃ v, ofJson json = .ok v := by
  constructor
  · intro shaped
    cases shaped with
    | object fields => exact ⟨_, by rw [ofJson, fields]⟩
    | _ => exact ⟨_, rfl⟩
  · rintro ⟨v, read⟩
    cases json with
    | string s => exact .text
    | number n => exact .number
    | bool b => exact .bool
    | object members =>
        rw [ofJson] at read
        split at read
        · next w fields => exact .object fields
        · cases read
    | null | array items => cases read

theorem exists_namesOfJson_eq_ok_iff {items : List Json} :
    (∃ l, namesOfJson items = .ok l) ↔ ∀ item ∈ items, ∃ s, item = .string s := by
  induction items with
  | nil => simp [namesOfJson]
  | cons item items ih =>
      rw [List.forall_mem_cons, ← ih]
      cases item with
      | string s => cases read : namesOfJson items <;> simp [namesOfJson, read, Except.map]
      | _ => simp [namesOfJson]

theorem exists_valuesOfJson_eq_ok_iff {members : List (String × Json)} :
    (∃ t, valuesOfJson members = .ok t) ↔ ∀ m ∈ members, Value.Shaped m.2 := by
  refine exists_foldlM_eq_ok_iff fun t m => ?_
  rw [Value.shaped_iff]
  cases Value.ofJson m.2 <;> simp [bind, Except.bind, pure, Except.pure]

namespace Shape

variable {shape : Shape} {json : Json}

/-- A shape that is not a condition admits what can be read. -/
theorem admits_iff_ofPlainJson (plain : shape ≠ .condition) :
    shape.Admits json ↔ ∃ p, Param.ofPlainJson shape json = .ok p := by
  have bounds (n : Int) : Param.leastInteger ≤ n ∧ n ≤ Param.greatestInteger ↔
      -((Nat.pow 2 63 : Nat) : Int) ≤ n ∧ n < (Nat.pow 2 63 : Nat) := by
    have power : Nat.pow 2 63 = 9223372036854775808 := rfl
    rw [Param.leastInteger, Param.greatestInteger, power]
    omega
  constructor
  · intro admits
    cases admits with
    | value shaped =>
        obtain ⟨v, read⟩ := Value.shaped_iff.mp shaped
        exact ⟨.value v, by rw [Param.ofPlainJson, read]; rfl⟩
    | integerText denotes least greatest =>
        have read := (Text.signed?_eq_some_iff (by decide)).mpr
          ⟨denotes, (bounds _).mp ⟨least, greatest⟩⟩
        exact ⟨.integer _, by rw [Param.ofPlainJson, read]⟩
    | names each =>
        obtain ⟨l, read⟩ := exists_namesOfJson_eq_ok_iff.mpr each
        exact ⟨.names l, by rw [Param.ofPlainJson, read]; rfl⟩
    | values each =>
        obtain ⟨t, read⟩ := exists_valuesOfJson_eq_ok_iff.mpr each
        exact ⟨.values t, by rw [Param.ofPlainJson, read]; rfl⟩
    | condition each => exact absurd rfl plain
    | _ => exact ⟨_, rfl⟩
  · rintro ⟨p, read⟩
    unfold Param.ofPlainJson at read
    split at read
    · cases shaped : Value.ofJson json with
      | error m => rw [shaped] at read; cases read
      | ok v => exact .value (Value.shaped_iff.mpr ⟨v, shaped⟩)
    · exact .name
    · exact .bool
    · exact .boolText
    · exact .integer
    · next s =>
      split at read
      · next n whole =>
        obtain ⟨denotes, within⟩ := (Text.signed?_eq_some_iff (by decide)).mp whole
        obtain ⟨least, greatest⟩ := (bounds n).mpr within
        exact .integerText denotes least greatest
      · cases read
    · exact .text
    · exact .textNumber
    · next items =>
      cases listed : namesOfJson items with
      | error m => rw [listed] at read; cases read
      | ok l => exact .names (exists_namesOfJson_eq_ok_iff.mp ⟨l, listed⟩)
    · exact .namesText
    · next members =>
      cases listed : valuesOfJson members with
      | error m => rw [listed] at read; cases read
      | ok t => exact .values (exists_valuesOfJson_eq_ok_iff.mp ⟨t, listed⟩)
    · cases read

end Shape

/-! ## Parameters -/

/-- Parameters of the shapes that a schema asks for.  One that is `null` counts as left out, and one
that the schema does not list is a value. -/
def Fit (schema : List ParamSpec) (members : List (String × Json)) : Prop :=
  ∀ m ∈ members, m.2 ≠ .null → (shapeIn schema m.1).Admits m.2

section

variable (read : Shape → Json → Except Misfit Param) (schema : List ParamSpec)

/-- Reads one parameter after others. -/
def paramWith (params : Params) (m : String × Json) : Except (String × Misfit) Params :=
  match m.2 with
  | .null => .ok params
  | json =>
    match read (shapeIn schema m.1) json with
    | .ok p => .ok (params.insert m.1 p)
    | .error reason => .error (m.1, reason)

theorem paramsWith_eq_foldlM (members : List (String × Json)) :
    paramsWith read schema members = members.foldlM (paramWith read schema) Table.empty := rfl

variable {read schema}

theorem paramWith_eq_ok_iff {params : Params} {m : String × Json} :
    (∃ p, paramWith read schema params m = .ok p) ↔
      (m.2 ≠ .null → ∃ p, read (shapeIn schema m.1) m.2 = .ok p) := by
  unfold paramWith
  split
  · next null => simp [null]
  · next present =>
    have present : m.2 ≠ .null := present
    cases read (shapeIn schema m.1) m.2 <;> simp [present]

theorem paramWith_eq_error_iff {params : Params} {m : String × Json} {e : String × Misfit} :
    paramWith read schema params m = .error e ↔
      m.2 ≠ .null ∧ e.1 = m.1 ∧ read (shapeIn schema m.1) m.2 = .error e.2 := by
  obtain ⟨name, reason⟩ := e
  unfold paramWith
  split
  · next null => simp [null]
  · next present =>
    have present : m.2 ≠ .null := present
    cases read (shapeIn schema m.1) m.2 <;> simp [present, eq_comm]

/-- Reading parameters one by one: all fit, or the error is that of the first that does not. -/
theorem paramsWith_cases (members : List (String × Json))
    (reads : ∀ name json, (shapeIn schema name).Admits json ↔
      ∃ p, read (shapeIn schema name) json = .ok p) :
    ((∃ p, paramsWith read schema members = .ok p) ∧ Fit schema members) ∨
      ∃ before name json after reason, members = before ++ (name, json) :: after ∧
        Fit schema before ∧ json ≠ .null ∧ read (shapeIn schema name) json = .error reason ∧
        paramsWith read schema members = .error (name, reason) := by
  have step (params : Params) (m : String × Json) :
      (m.2 ≠ .null → (shapeIn schema m.1).Admits m.2) ↔
        ∃ p, paramWith read schema params m = .ok p := by
    rw [paramWith_eq_ok_iff, reads]
  rw [paramsWith_eq_foldlM]
  rcases foldlM_cases (l := members) (b := Table.empty) step with ok | ⟨before, ⟨name, json⟩, after,
    params, ⟨_, reason⟩, split, each, failed, done⟩
  · exact .inl ok
  · obtain ⟨present, rfl, here⟩ := paramWith_eq_error_iff.mp failed
    exact .inr ⟨before, _, json, after, reason, split, each, present, here, done⟩

end

/-- **The shapes that a schema admits are those that are read.** -/
theorem Shape.admits_iff (block : BlockId) {shape : Shape} {json : Json} :
    shape.Admits json ↔ ∃ p, Param.ofJson block shape json = .ok p := by
  by_cases nested : shape = .condition ∧ ∃ members, json = .object members
  · obtain ⟨rfl, members, rfl⟩ := nested
    have reads (name : String) (json : Json) : (shapeIn Condition.schema name).Admits json ↔
        ∃ p, Param.ofPlainJson (shapeIn Condition.schema name) json = .ok p :=
      admits_iff_ofPlainJson (Condition.shapeIn_schema_ne name)
    rw [Param.ofJson]
    rcases paramsWith_cases members reads with ⟨⟨p, read⟩, each⟩ | ⟨before, name, json,
      after, reason, rfl, -, present, failed, read⟩
    · rw [read]
      exact iff_of_true (.condition each) ⟨_, rfl⟩
    · rw [read]
      refine iff_of_false ?_ ?_
      · intro admits
        cases admits with
        | condition each =>
            obtain ⟨p, other⟩ := (reads name json).mp (each (name, json) (by simp) present)
            cases failed.symm.trans other
      · rintro ⟨p, other⟩
        cases other
  · have plain : Param.ofJson block shape json = Param.ofPlainJson shape json := by
      unfold Param.ofJson
      split
      · exact absurd ⟨rfl, _, rfl⟩ nested
      · rfl
    by_cases condition : shape = .condition
    · subst condition
      refine iff_of_false ?_ ?_
      · intro admits
        cases admits with
        | condition each => exact nested ⟨rfl, _, rfl⟩
      · rintro ⟨p, read⟩
        rw [plain] at read
        cases json <;> cases read
    · rw [plain, admits_iff_ofPlainJson condition]

/-- Why the parameters of a block cannot be read: the first that does not fit, and what is wrong
with it. -/
def Misfits (block : BlockId) (schema : List ParamSpec) (members : List (String × Json))
    (name : String) (reason : Misfit) : Prop :=
  ∃ before json after, members = before ++ (name, json) :: after ∧ Fit schema before ∧
    json ≠ .null ∧ Param.ofJson block (shapeIn schema name) json = .error reason

theorem Misfits.not_fit {block : BlockId} {schema : List ParamSpec}
    {members : List (String × Json)} {name : String} {reason : Misfit}
    (misfits : Misfits block schema members name reason) : ¬ Fit schema members := by
  intro fit
  obtain ⟨before, json, after, rfl, -, present, failed⟩ := misfits
  obtain ⟨p, read⟩ := (Shape.admits_iff block).mp (fit (name, json) (by simp) present)
  cases failed.symm.trans read

/-- **The parameters of a block are read, or the first that does not fit is to blame.** -/
theorem Params.ofJson_cases (block : BlockId) (schema : List ParamSpec)
    (members : List (String × Json)) :
    ((∃ p, Params.ofJson block schema members = .ok p) ∧ Fit schema members) ∨
      ∃ name reason, Params.ofJson block schema members =
        .error (.malformedParameter block name reason) ∧
        Misfits block schema members name reason := by
  have reads (name : String) (json : Json) : (shapeIn schema name).Admits json ↔
      ∃ p, Param.ofJson block (shapeIn schema name) json = .ok p := Shape.admits_iff block
  unfold Params.ofJson
  rcases paramsWith_cases members reads with ⟨⟨p, read⟩, fit⟩ | ⟨before, name, json,
    after, reason, rfl, fit, present, failed, read⟩
  · exact .inl ⟨⟨p, by rw [read]⟩, fit⟩
  · exact .inr ⟨name, reason, by rw [read], ⟨before, json, after, rfl, fit, present, failed⟩⟩

/-! ## Blocks -/

namespace BlockDocument

mutual

/-- The blocks of a document: a block before its children, the children from left to right. -/
def preorder : BlockDocument → List BlockDocument
  | ⟨id, type, parameters, children⟩ => ⟨id, type, parameters, children⟩ :: preorderAll children

/-- The blocks of several documents, document after document. -/
def preorderAll : List BlockDocument → List BlockDocument
  | [] => []
  | d :: ds => preorder d ++ preorderAll ds

end

/-- Blocks that can be decoded. -/
structure Acceptable (ds : List BlockDocument) : Prop where
  /-- Every block has a known type. -/
  types : ∀ d ∈ ds, ∃ t, BlockType.ofName? d.type = some t
  /-- No two blocks have one identity. -/
  ids : (ds.map BlockDocument.id).Nodup
  /-- Every parameter has a shape that the schema of the type admits. -/
  parameters : ∀ d ∈ ds, ∀ t, BlockType.ofName? d.type = some t → Fit t.schema d.parameters.toList

/-- What is wrong with a block after others: its type is not known, or else its identity is taken,
or else a parameter does not fit. -/
inductive Offends (before : List BlockDocument) (d : BlockDocument) : DocumentError → Prop
  | type (unknown : BlockType.ofName? d.type = none) : Offends before d (.unknownBlockType d.type)
  | id {t : BlockType} (known : BlockType.ofName? d.type = some t)
      (taken : d.id ∈ before.map BlockDocument.id) : Offends before d (.duplicateId d.id)
  | parameter {t : BlockType} (known : BlockType.ofName? d.type = some t)
      (free : d.id ∉ before.map BlockDocument.id) {name : String} {reason : Misfit}
      (misfits : Misfits d.id t.schema d.parameters.toList name reason) :
      Offends before d (.malformedParameter d.id name reason)

/-- An error is about the first block that offends. -/
def FirstOffence (ds : List BlockDocument) (e : DocumentError) : Prop :=
  ∃ before d after, ds = before ++ d :: after ∧ Acceptable before ∧ Offends before d e

theorem acceptable_nil : Acceptable [] where
  types := fun _ none => nomatch none
  ids := List.nodup_nil
  parameters := fun _ none => nomatch none

theorem acceptable_concat_iff {before : List BlockDocument} {d : BlockDocument} :
    Acceptable (before ++ [d]) ↔ Acceptable before ∧ d.id ∉ before.map BlockDocument.id ∧
      ∃ t, BlockType.ofName? d.type = some t ∧ Fit t.schema d.parameters.toList := by
  constructor
  · rintro ⟨types, ids, parameters⟩
    rw [List.map_append, List.nodup_append] at ids
    obtain ⟨t, known⟩ := types d (by simp)
    refine ⟨⟨fun c hc => types c (by simp [hc]), ids.1, fun c hc => parameters c (by simp [hc])⟩,
      fun taken => ids.2.2 d.id taken d.id (by simp) rfl, t, known, parameters d (by simp) t known⟩
  · rintro ⟨⟨types, ids, parameters⟩, free, t, known, fit⟩
    refine ⟨?_, ?_, ?_⟩
    · simpa [or_imp, forall_and, types] using ⟨types, t, known⟩
    · rw [List.map_append, List.map_singleton]
      exact List.nodup_append.mpr ⟨ids, List.nodup_singleton _, fun a ha b hb => by
        rintro rfl
        obtain rfl := List.mem_singleton.mp hb
        exact free ha⟩
    · intro c hc
      rcases List.mem_append.mp hc with early | last
      · exact parameters c early
      · obtain rfl := List.mem_singleton.mp last
        intro t' known'
        cases known.symm.trans known'
        exact fit

theorem Acceptable.of_append {ds es : List BlockDocument} (acceptable : Acceptable (ds ++ es)) :
    Acceptable ds where
  types := fun d hd => acceptable.types d (List.mem_append_left es hd)
  ids := by
    have ids := acceptable.ids
    rw [List.map_append] at ids
    exact ids.of_append_left
  parameters := fun d hd => acceptable.parameters d (List.mem_append_left es hd)

/-- What offends is not acceptable. -/
theorem Offends.not_acceptable {before : List BlockDocument} {d : BlockDocument}
    {e : DocumentError} (offends : Offends before d e) : ¬ Acceptable (before ++ [d]) := by
  intro acceptable
  obtain ⟨-, free, t, known, fit⟩ := acceptable_concat_iff.mp acceptable
  cases offends with
  | type unknown => cases known.symm.trans unknown
  | id _ taken => exact free taken
  | parameter known' _ misfits =>
      cases known.symm.trans known'
      exact misfits.not_fit fit

theorem FirstOffence.not_acceptable {ds : List BlockDocument} {e : DocumentError}
    (first : FirstOffence ds e) : ¬ Acceptable ds := by
  intro acceptable
  obtain ⟨before, d, after, rfl, -, offends⟩ := first
  rw [List.append_cons] at acceptable
  exact offends.not_acceptable acceptable.of_append

theorem FirstOffence.append {ds : List BlockDocument} {e : DocumentError}
    (first : FirstOffence ds e) (es : List BlockDocument) : FirstOffence (ds ++ es) e := by
  obtain ⟨before, d, after, rfl, acceptable, offends⟩ := first
  exact ⟨before, d, after ++ es, by simp, acceptable, offends⟩

mutual

/-- A block tree of the same form as a document: every block where it was, with its identity and
type. -/
def Depicts : Block → BlockDocument → Prop
  | ⟨i, k, bs⟩, ⟨id, type, _, ds⟩ => i = id ∧ Named.name k.blockType = type ∧ DepictsAll bs ds

/-- Block trees of the same form as documents, tree by tree. -/
def DepictsAll : List Block → List BlockDocument → Prop
  | [], [] => True
  | b :: bs, d :: ds => Depicts b d ∧ DepictsAll bs ds
  | _, _ => False

end

mutual

/-- Trees of one form have the same identities and types in pre-order. -/
theorem map_preorder_of_depicts : ∀ {b : Block} {d : BlockDocument}, Depicts b d →
    b.preorder.map (fun n => (n.id, Named.name n.blockType)) =
      d.preorder.map fun n => (n.id, n.type)
  | ⟨i, k, bs⟩, ⟨id, type, _, ds⟩, same => by
      obtain ⟨rfl, rfl, inside⟩ := same
      rw [Block.preorder, preorder, List.map_cons, List.map_cons,
        map_preorderAll_of_depictsAll inside]
      rfl

theorem map_preorderAll_of_depictsAll : ∀ {bs : List Block} {ds : List BlockDocument},
    DepictsAll bs ds → (Block.preorderAll bs).map (fun n => (n.id, Named.name n.blockType)) =
      (preorderAll ds).map fun n => (n.id, n.type)
  | [], [], _ => rfl
  | b :: bs, d :: ds, same => by
      rw [Block.preorderAll, preorderAll, List.map_append, List.map_append,
        map_preorder_of_depicts same.1, map_preorderAll_of_depictsAll same.2]
  | [], _ :: _, same => nomatch same
  | _ :: _, [], same => nomatch same

end

/-- The identities met in documents that were decoded, the last one first. -/
def met (before : List BlockDocument) : List BlockId := (before.map BlockDocument.id).reverse

/-- What decoding comes to after other documents: everything is acceptable and what is decoded is as
it should be, or the error is that of the first offence. -/
inductive Verdict {α : Type} (ds : List BlockDocument) (Same : α → Prop) :
    Except DocumentError (α × List BlockId) → Prop
  | ok {a : α} (acceptable : Acceptable ds) (same : Same a) : Verdict ds Same (.ok (a, met ds))
  | error {e : DocumentError} (first : FirstOffence ds e) : Verdict ds Same (.error e)

/-- A block that is decoded has the type that its document names. -/
theorem name_of_ofParams {type : String} {t : BlockType} {p : Params}
    (known : BlockType.ofName? type = some t) :
    Named.name (Instruction.ofParams t p).blockType = type := by
  have same : (Instruction.ofParams t p).blockType = t := by cases t <;> rfl
  have found : (Named.name t == type) = true :=
    List.find?_some (p := fun t => Named.name t == type) known
  rw [same]
  exact beq_iff_eq.mp found

mutual

/-- **Decoding a document after acceptable ones.** -/
theorem verdict_decode : ∀ (d : BlockDocument) {before : List BlockDocument}, Acceptable before →
    Verdict (before ++ d.preorder) (Depicts · d) (decode (met before) d)
  | ⟨id, type, parameters, children⟩, before, acceptable => by
      rw [preorder, decode]
      cases known : BlockType.ofName? type with
      | none => exact .error ⟨before, _, _, rfl, acceptable, .type known⟩
      | some t =>
          by_cases taken : id ∈ before.map BlockDocument.id
          · have seen : (met before).contains id = true := by simpa [met] using taken
            simp only [seen, if_true]
            exact .error ⟨before, _, _, rfl, acceptable, .id known taken⟩
          · have unseen : (met before).contains id = false := by simpa [met] using taken
            simp only [unseen, Bool.false_eq_true, if_false]
            rcases Params.ofJson_cases id t.schema parameters.toList with ⟨⟨p, read⟩, fit⟩ |
              ⟨name, reason, read, misfits⟩
            · simp only [read]
              have acceptable : Acceptable (before ++ [⟨id, type, parameters, children⟩]) :=
                acceptable_concat_iff.mpr ⟨acceptable, taken, t, known, fit⟩
              have inside := verdict_decodeAll children acceptable
              have first : met (before ++ [⟨id, type, parameters, children⟩]) =
                  id :: met before := by simp [met]
              rw [first, List.append_assoc, List.singleton_append] at inside
              generalize decodeAll _ children = decoded at inside
              cases inside with
              | error first => exact .error first
              | ok acceptable same =>
                  exact .ok acceptable ⟨rfl, name_of_ofParams known, same⟩
            · simp only [read]
              exact .error ⟨before, _, _, rfl, acceptable, .parameter known taken misfits⟩

theorem verdict_decodeAll : ∀ (ds : List BlockDocument) {before : List BlockDocument},
    Acceptable before →
      Verdict (before ++ preorderAll ds) (DepictsAll · ds) (decodeAll (met before) ds)
  | [], before, acceptable => by
      rw [preorderAll, List.append_nil, decodeAll]
      exact .ok acceptable trivial
  | d :: ds, before, acceptable => by
      rw [preorderAll, decodeAll, ← List.append_assoc]
      have head := verdict_decode d acceptable
      generalize decode (met before) d = decoded at head
      cases head with
      | error first => exact .error (first.append _)
      | ok acceptable same =>
          dsimp only
          have tail := verdict_decodeAll ds acceptable
          generalize decodeAll _ ds = decoded at tail
          cases tail with
          | error first => exact .error first
          | ok acceptable rest => exact .ok acceptable ⟨same, rest⟩

end

theorem preorderAll_append (ds es : List BlockDocument) :
    preorderAll (ds ++ es) = preorderAll ds ++ preorderAll es := by
  induction ds with
  | nil => rfl
  | cons d ds ih => rw [List.cons_append, preorderAll, preorderAll, ih, List.append_assoc]

end BlockDocument

/-! ## Lines -/

namespace LineDocument

open BlockDocument (Acceptable FirstOffence met)

/-- Lines stably sorted by their numbers. -/
structure IsStableSort (lines sorted : List LineDocument) : Prop where
  /-- They are the same lines. -/
  perm : sorted.Perm lines
  /-- Their numbers ascend. -/
  ascending : sorted.Pairwise fun d e => d.lineNumber ≤ e.lineNumber
  /-- Lines of one number stay in their order. -/
  stable : ∀ n, sorted.filter (fun d => d.lineNumber == n) =
    lines.filter fun d => d.lineNumber == n

theorem isStableSort_inOrder (lines : List LineDocument) : IsStableSort lines (inOrder lines) := by
  have trans : ∀ a b c : LineDocument, decide (a.lineNumber ≤ b.lineNumber) →
      decide (b.lineNumber ≤ c.lineNumber) → decide (a.lineNumber ≤ c.lineNumber) := by
    intro a b c
    simpa using Nat.le_trans
  have total : ∀ a b : LineDocument,
      decide (a.lineNumber ≤ b.lineNumber) || decide (b.lineNumber ≤ a.lineNumber) := by
    intro a b
    simpa using Nat.le_total _ _
  have perm : (inOrder lines).Perm lines := List.mergeSort_perm _ _
  refine ⟨perm, ?_, fun n => ?_⟩
  · exact (List.pairwise_mergeSort trans total lines).imp fun h => of_decide_eq_true h
  · -- the lines of one number are in order already, so sorting leaves them a sublist
    have level : (lines.filter fun d => d.lineNumber == n).Pairwise
        fun d e => decide (d.lineNumber ≤ e.lineNumber) := by
      refine List.pairwise_of_forall_mem_list fun d hd e he => ?_
      have hd := (List.mem_filter.mp hd).2
      have he := (List.mem_filter.mp he).2
      simp only [beq_iff_eq] at hd he
      exact decide_eq_true (by omega)
    have below : (lines.filter fun d => d.lineNumber == n).Sublist (inOrder lines) :=
      List.sublist_mergeSort trans total level List.filter_sublist
    have kept := below.filter fun d => d.lineNumber == n
    rw [List.filter_filter] at kept
    simp only [Bool.and_self] at kept
    exact (kept.eq_of_length (perm.filter _).length_eq.symm).symm

/-- A line with the properties that its document gives and block trees of the form of its. -/
structure Depicts (l : Line) (d : LineDocument) : Prop where
  /-- They have one name. -/
  name : l.name = d.name
  /-- They have one remark. -/
  description : l.description = d.description
  /-- Both react or neither does. -/
  enabled : l.enabled = d.enabled
  /-- Every block is where it was. -/
  blocks : BlockDocument.DepictsAll l.blocks d.blocks

/-- The blocks of lines, at every depth, line after line. -/
def nodes (lines : List LineDocument) : List BlockDocument :=
  BlockDocument.preorderAll (lines.flatMap LineDocument.blocks)

theorem nodes_cons (d : LineDocument) (ds : List LineDocument) :
    nodes (d :: ds) = BlockDocument.preorderAll d.blocks ++ nodes ds := by
  rw [nodes, List.flatMap_cons, BlockDocument.preorderAll_append, nodes]

/-- **Decoding lines after acceptable blocks.** -/
theorem decodeAll_cases (ds : List LineDocument) {before : List BlockDocument}
    (acceptable : Acceptable before) :
    (∃ lines, decodeAll (met before) ds = .ok lines ∧ Acceptable (before ++ nodes ds) ∧
        List.Forall₂ Depicts lines ds) ∨
      ∃ e, decodeAll (met before) ds = .error e ∧ FirstOffence (before ++ nodes ds) e := by
  induction ds generalizing before with
  | nil =>
      have none : before ++ nodes [] = before := List.append_nil before
      exact .inl ⟨[], rfl, none.symm ▸ acceptable, .nil⟩
  | cons d ds ih =>
      have head := BlockDocument.verdict_decodeAll d.blocks acceptable
      rw [nodes_cons, ← List.append_assoc, decodeAll]
      generalize BlockDocument.decodeAll (met before) d.blocks = decoded at head
      cases head with
      | error first => exact .inr ⟨_, rfl, first.append _⟩
      | @ok blocks acceptable same =>
          dsimp only
          rcases ih acceptable with ⟨lines, rest, acceptable, depicts⟩ | ⟨e, rest, first⟩
          · exact .inl ⟨d.withBlocks blocks :: lines, by rw [rest], acceptable,
              .cons ⟨rfl, rfl, rfl, same⟩ depicts⟩
          · exact .inr ⟨e, by rw [rest], first⟩

/-- Lines of one form have the same identities and types in pre-order. -/
theorem map_nodes_of_depicts {lines : List Line} {ds : List LineDocument}
    (depicts : List.Forall₂ Depicts lines ds) :
    (Block.preorderAll (lines.flatMap Line.blocks)).map
        (fun n => (n.id, Named.name n.blockType)) =
      (nodes ds).map fun n => (n.id, n.type) := by
  induction depicts with
  | nil => rfl
  | cons line _ ih =>
      rw [List.flatMap_cons, Block.preorderAll_append, List.map_append, ih, nodes_cons,
        List.map_append, BlockDocument.map_preorderAll_of_depictsAll line.blocks]

end LineDocument

/-! ## Scripts -/

namespace ScriptDocument

open BlockDocument (Acceptable FirstOffence)

/-- The lines of a document in the order in which they are decoded. -/
def sorted (d : ScriptDocument) : List LineDocument := LineDocument.inOrder d.lines

/-- The blocks of a document, at every depth, in the order in which they are decoded. -/
def nodes (d : ScriptDocument) : List BlockDocument := LineDocument.nodes d.sorted

/-- The script of a document, or the error of its first offence. -/
theorem toScript_cases (d : ScriptDocument) :
    (∃ s, d.toScript = .ok s ∧ Acceptable d.nodes ∧
        List.Forall₂ LineDocument.Depicts s.lines d.sorted) ∨
      ∃ e, d.toScript = .error e ∧ FirstOffence d.nodes e := by
  rw [toScript]
  rcases LineDocument.decodeAll_cases d.sorted BlockDocument.acceptable_nil with
    ⟨lines, decoded, acceptable, depicts⟩ | ⟨e, decoded, first⟩
  · have decoded : LineDocument.decodeAll [] (LineDocument.inOrder d.lines) = .ok lines := decoded
    rw [decoded]
    exact .inl ⟨_, rfl, acceptable, depicts⟩
  · have decoded : LineDocument.decodeAll [] (LineDocument.inOrder d.lines) = .error e := decoded
    rw [decoded]
    exact .inr ⟨e, rfl, first⟩

/-- **Decoding is all or nothing.**  A document is decoded exactly if each of its blocks, at every
depth, has a known type, an identity of its own and parameters of admitted shapes.  The script then
has the lines of the document stably sorted by number, with every block where it was, and so the
same identities and types in pre-order.  Otherwise the error is that of the first block that
offends. -/
theorem toScript_exact (d : ScriptDocument) :
    LineDocument.IsStableSort d.lines d.sorted ∧
    ((∃ s, d.toScript = .ok s) ↔ Acceptable d.nodes) ∧
    (∀ s, d.toScript = .ok s →
      List.Forall₂ LineDocument.Depicts s.lines d.sorted ∧
      s.nodes.map (fun n => (n.id, Named.name n.blockType)) =
        d.nodes.map fun n => (n.id, n.type)) ∧
    ∀ e, d.toScript = .error e → FirstOffence d.nodes e := by
  refine ⟨LineDocument.isStableSort_inOrder d.lines, ?_⟩
  rcases d.toScript_cases with ⟨s, decoded, acceptable, depicts⟩ | ⟨e, decoded, first⟩
  · rw [decoded]
    refine ⟨iff_of_true ⟨s, rfl⟩ acceptable, ?_, fun e none => nomatch none⟩
    rintro _ ⟨⟩
    exact ⟨depicts, LineDocument.map_nodes_of_depicts depicts⟩
  · rw [decoded]
    have refused (s : Script) : Except.error e ≠ .ok s := nofun
    refine ⟨iff_of_false (fun ⟨s, ok⟩ => refused s ok) first.not_acceptable, ?_, ?_⟩
    · exact fun s ok => absurd ok (refused s)
    · rintro _ ⟨⟩
      exact first

end ScriptDocument

end Blockwork
