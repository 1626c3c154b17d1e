import Blockwork.Proofs.Document.Returned
import Blockwork.Proofs.Document.Scripts
import Blockwork.Proofs.Script
import Blockwork.Proofs.Uuid

/-!
# Documents of blocks and lines read back from their text

The reader of a document goes down the tree with a bound on the containers that it may still enter.
For a document that has been written this comes to one comparison with the height of what was
written (`BlockDocument.read_toJson`, `LineDocument.read_toJson`): within the bound it reads each
parameter back, and beyond it it reads nothing.

## What is load-bearing

A child is two containers below its parent, the list of children lying between them, so the
induction on the bound goes by two.  What is read is decoded with the identities met before, and the
invariant is the one of decoding a document that has not been through text: after a tree they are
those of before and those of the tree (`decode_reread_iff`).
-/

namespace Blockwork

open BlockDocument (Reader lift)

/-! ## Readers -/

namespace BlockDocument

variable {α β : Type}

theorem lift_some_bind (a : α) (f : α → Reader β) : (lift (some a) >>= f) = f a := rfl

theorem lift_bind (x : Option α) (f : α → Option β) :
    (lift x >>= fun a => lift (f a)) = lift (x.bind f) := by
  cases x <;> rfl

theorem pure_eq_lift (a : α) : (pure a : Reader α) = lift (some a) := rfl

/-- Whatever a reader delivers has a property. -/
def Delivers (P : α → Prop) (r : Reader α) : Prop :=
  ∀ supply a supply', r supply = some (a, supply') → P a

theorem Delivers.of_pure {P : β → Prop} {b : β} (h : P b) : Delivers P (pure b) := by
  intro supply b' supply' read
  cases read
  exact h

theorem Delivers.bind {P : β → Prop} {Q : α → Prop} {r : Reader α} {f : α → Reader β}
    (first : Delivers Q r) (rest : ∀ a, Q a → Delivers P (f a)) : Delivers P (r >>= f) := by
  intro supply b supply' read
  obtain ⟨⟨a, supply₁⟩, here, there⟩ := Option.bind_eq_some_iff.mp read
  exact rest a (first supply a supply₁ here) supply₁ b supply' there

theorem delivers_true (r : Reader α) : Delivers (fun _ => True) r := fun _ _ _ _ => trivial

/-- Items that are each read under a condition are read if all conditions hold. -/
theorem mapM_eq_lift {f : α → Reader β} {g : α → Option β} {P : α → Prop} [DecidablePred P]
    {l : List α} (each : ∀ a ∈ l, f a = lift (if P a then g a else none)) :
    l.mapM f = lift (if ∀ a ∈ l, P a then l.mapM g else none) := by
  induction l with
  | nil => simp [pure_eq_lift]
  | cons a l ih =>
      have rest := ih fun b hb => each b (List.mem_cons_of_mem _ hb)
      rw [List.mapM_cons, List.mapM_cons, each a (List.mem_cons_self ..), rest]
      simp only [pure_eq_lift, lift_bind, List.forall_mem_cons]
      by_cases here : P a
      · by_cases there : ∀ a ∈ l, P a
        · simp only [if_pos here, if_pos there, if_pos (And.intro here there)]
          rfl
        · simp [here, there]
      · simp [here]

end BlockDocument

namespace BlockDocument

mutual

/-- The document as it is read back from its text. -/
def reread? : BlockDocument → Option BlockDocument
  | ⟨id, type, parameters, children⟩ => do
    let parameters ← Json.rereadTable? parameters
    let children ← rereadAll? children
    pure ⟨id, type, parameters, children⟩

/-- Several documents as they are read back from their text. -/
def rereadAll? : List BlockDocument → Option (List BlockDocument)
  | [] => some []
  | d :: ds => do
    let d ← reread? d
    let ds ← rereadAll? ds
    pure (d :: ds)

end

theorem rereadAll?_eq_mapM (ds : List BlockDocument) : rereadAll? ds = ds.mapM reread? := by
  induction ds with
  | nil => rfl
  | cons d ds ih => simp [rereadAll?, ih]

theorem height_toJson (d : BlockDocument) :
    d.toJson.height = max (Json.height (.object d.parameters.toList))
      (if d.children.isEmpty then 0 else Json.heightItems (d.children.map toJson) + 1) + 1 := by
  rw [toJson_eq, Json.height, members, toJsonAll_eq_map]
  cases d.children <;> simp [Json.heightMembers, Json.height]

/-- Parameters are two levels down in a block, and so are its children. -/
theorem height_toJson_le_iff {d : BlockDocument} {depth : Nat} :
    d.toJson.height ≤ depth + 2 ↔ Json.height (.object d.parameters.toList) ≤ depth + 1 ∧
      ∀ c ∈ d.children, c.toJson.height ≤ depth := by
  have below : (∀ c ∈ d.children, c.toJson.height ≤ depth) ↔
      Json.heightItems (d.children.map toJson) ≤ depth := by
    rw [Json.heightItems_le_iff, List.forall_mem_map]
  rw [below, height_toJson]
  cases d.children with
  | nil => simp [Json.heightItems]
  | cons c cs => simp

theorem two_le_height_toJson (d : BlockDocument) : 2 ≤ d.toJson.height := by
  rw [height_toJson, Json.height]
  omega

/-- The children are left out of a written document when there are none. -/
theorem find_children (d : BlockDocument) :
    (Table.find "children" d.members).map Json.parsed =
      if d.children.isEmpty then none
      else some (.array (d.children.map fun c => Json.parsed c.toJson)) := by
  rw [members, toJsonAll_eq_map]
  cases d.children <;> simp [Table.find, Json.parsed, Json.parsedItems_eq_map]

/-- Reading one document, given how its children are read. -/
theorem readOne_toJson (depth : Nat) (inner : Option (Json.Node → Reader BlockDocument))
    (d : BlockDocument) {children : Option (List BlockDocument)}
    (below : ∀ t : Table String Json.Node,
      t.get? "children" = (Table.find "children" d.members).map Json.parsed →
        readChildren t inner = lift children) :
    readOne depth inner (Json.parsed d.toJson) =
      lift ((if Json.height (.object d.parameters.toList) ≤ depth
        then Json.rereadTable? d.parameters else none).bind fun parameters =>
          children.bind fun children => some ⟨d.id, d.type, parameters, children⟩) := by
  obtain ⟨t, fields, get⟩ := d.fields?_toJson depth
  have id : readId t = lift (some d.id) := by
    have set : t.get? "id" = some (.string (some d.id.text)) := by
      rw [get]
      simp [members, Table.find, Json.parsed]
    have back : uuid? (.string (some d.id.text)) = some d.id := by
      rw [uuid?, Json.Node.text?, Option.bind_some, Uuid.parse?_text]
    rw [readId, set]
    dsimp only
    rw [back]
  have type : field? t "type" Json.Node.text? = some d.type := by
    rw [field?, get]
    simp [members, Table.find, Json.parsed, Json.Node.text?]
  have parameters : fieldOr t "parameters" {} (fun v => v.dictionary? depth Json.Node.toJson?) =
      if Json.height (.object d.parameters.toList) ≤ depth then Json.rereadTable? d.parameters
      else none := by
    rw [fieldOr, get, ← Json.dictionary?_parsed]
    simp [members, Table.find]
  rw [readOne, fields, lift_some_bind]
  simp only [id, type, parameters, below t (get _), lift_some_bind, pure_eq_lift]
  simp only [lift_bind]

/-- The children of a written document, read one by one. -/
theorem readChildren_of_get? {d : BlockDocument} {t : Table String Json.Node}
    (set : t.get? "children" = (Table.find "children" d.members).map Json.parsed)
    (read : Json.Node → Reader BlockDocument) :
    readChildren t (some read) = d.children.mapM fun c => read (Json.parsed c.toJson) := by
  unfold readChildren
  rw [set, find_children]
  cases d.children with
  | nil => rfl
  | cons c cs => exact List.mapM_map

/-- **A document is read back if its containers are not too many inside one another.** -/
theorem read_toJson (depth : Nat) (d : BlockDocument) :
    read depth (Json.parsed d.toJson) =
      lift (if d.toJson.height ≤ depth then d.reread? else none) := by
  have deep := d.two_le_height_toJson
  induction depth using Nat.twoStepInduction generalizing d with
  | zero =>
      rw [if_neg (by omega)]
      rfl
  | one =>
      have below (t : Table String Json.Node)
          (set : t.get? "children" = (Table.find "children" d.members).map Json.parsed) :
          readChildren t none = lift (if d.children.isEmpty then some [] else none) := by
        unfold readChildren
        rw [set, find_children]
        cases d.children <;> rfl
      have none : ¬ Json.height (.object d.parameters.toList) ≤ 0 := by simp [Json.height]
      rw [read, readOne_toJson 0 _ d below, if_neg none, Option.bind_none, if_neg (by omega)]
  | more depth ih _ =>
      have below (t : Table String Json.Node)
          (set : t.get? "children" = (Table.find "children" d.members).map Json.parsed) :
          readChildren t (some (read depth)) = lift (if ∀ c ∈ d.children, c.toJson.height ≤ depth
            then rereadAll? d.children else none) := by
        rw [readChildren_of_get? set, rereadAll?_eq_mapM]
        exact mapM_eq_lift fun c _ => ih c c.two_le_height_toJson
      rw [read, readOne_toJson (depth + 1) _ d below]
      congr 1
      simp only [height_toJson_le_iff]
      obtain ⟨id, type, parameters, children⟩ := d
      rw [reread?]
      by_cases shallow : Json.height (.object parameters.toList) ≤ depth + 1
      · by_cases inner : ∀ c ∈ children, c.toJson.height ≤ depth
        · simp only [if_pos shallow, if_pos inner, if_pos (And.intro shallow inner)]
          rfl
        · simp only [if_neg inner, if_neg fun both => inner (And.right both)]
          simp
      · simp [shallow]

end BlockDocument

namespace Block

mutual

/-- The tree with its values replaced. -/
def mapValues (f : Value → Value) : Block → Block
  | ⟨i, k, cs⟩ => ⟨i, k.mapValues f, mapValuesAll f cs⟩

/-- Several trees with their values replaced. -/
def mapValuesAll (f : Value → Value) : List Block → List Block
  | [] => []
  | b :: bs => mapValues f b :: mapValuesAll f bs

end

/-- Every value in the trees has a property. -/
def Values (P : Value → Prop) (bs : List Block) : Prop :=
  ∀ n ∈ preorderAll bs, ∀ v ∈ n.instruction.contents, P v

theorem values_cons {P : Value → Prop} {i : BlockId} {k : Instruction} {cs bs : List Block} :
    Values P (⟨i, k, cs⟩ :: bs) ↔ (∀ v ∈ k.contents, P v) ∧ Values P cs ∧ Values P bs := by
  simp only [Values, preorderAll, preorder, List.forall_mem_append, List.forall_mem_cons, and_assoc]

theorem values_append {P : Value → Prop} {bs cs : List Block} :
    Values P (bs ++ cs) ↔ Values P bs ∧ Values P cs := by
  rw [Values, preorderAll_append, List.forall_mem_append, Values, Values]

theorem values_nil {P : Value → Prop} : Values P [] := fun _ none => (nomatch none)

end Block

namespace BlockDocument

theorem reread?_eq_some_iff {i : BlockId} {type : String} {parameters : Table String Json}
    {children : List BlockDocument} {d : BlockDocument} :
    reread? ⟨i, type, parameters, children⟩ = some d ↔ ∃ u ds,
      Json.rereadTable? parameters = some u ∧ rereadAll? children = some ds ∧
        ⟨i, type, u, ds⟩ = d := by
  simp [reread?, Option.bind_eq_some_iff]

theorem rereadAll?_cons_eq_some_iff {d : BlockDocument} {ds es : List BlockDocument} :
    rereadAll? (d :: ds) = some es ↔ ∃ e rest, d.reread? = some e ∧ rereadAll? ds = some rest ∧
      e :: rest = es := by
  simp [rereadAll?, Option.bind_eq_some_iff]

/-- What decoding a document of a known type comes to. -/
theorem decode_eq_ok_iff {seen : List BlockId} {i : BlockId} {t : BlockType}
    {parameters : Table String Json} {children : List BlockDocument} {r : Block × List BlockId}
    (unseen : i ∉ seen) :
    decode seen ⟨i, Named.name t, parameters, children⟩ = .ok r ↔ ∃ p rs,
      Params.ofJson i t.schema parameters.toList = .ok p ∧ decodeAll (i :: seen) children = .ok rs ∧
        r = (⟨i, .ofParams t p, rs.1⟩, rs.2) := by
  have unseen : seen.contains i = false := by simpa using unseen
  rw [decode, BlockType.ofName?_name]
  simp only [unseen]
  cases Params.ofJson i t.schema parameters.toList <;> cases decodeAll (i :: seen) children <;>
    simp [eq_comm]

theorem decodeAll_cons_eq_ok_iff {seen : List BlockId} {d : BlockDocument} {ds : List BlockDocument}
    {r : List Block × List BlockId} :
    decodeAll seen (d :: ds) = .ok r ↔ ∃ c rs, decode seen d = .ok c ∧
      decodeAll c.2 ds = .ok rs ∧ r = (c.1 :: rs.1, rs.2) := by
  rw [decodeAll]
  cases decode seen d with
  | error e => simp
  | ok c =>
      obtain ⟨b, seen⟩ := c
      cases rest : decodeAll seen ds with
      | error e => simp [rest]
      | ok rs =>
          obtain ⟨bs, seen⟩ := rs
          simp [rest, eq_comm]

mutual

/-- **Decoding what is read back of the document of a tree.**  It gives the tree with every value as
it is read back, if each is read back at all. -/
theorem decode_reread_iff {seen : List BlockId} :
    ∀ {b : Block} {r : Block × List BlockId}, (b.ids.reverse ++ seen).Nodup →
      ((∃ d, (ofBlock b).reread? = some d ∧ decode seen d = .ok r) ↔
        Block.Values Value.IsReadable [b] ∧
          r = ((b.mapValues Value.restored).normal, b.ids.reverse ++ seen))
  | ⟨i, k, cs⟩, r, distinct => by
      rw [Block.reverse_ids_append] at distinct ⊢
      have unseen := (List.nodup_cons.mp distinct.of_append_right).1
      have instruction : Instruction.ofParams k.blockType (k.mapValues Value.restored).toParams =
          (k.mapValues Value.restored).normal := by
        rw [← Instruction.ofParams_toParams, Instruction.blockType_mapValues]
      rw [Block.mapValues, Block.normal, ← instruction, Block.values_cons, ofBlock]
      constructor
      · rintro ⟨d, back, decoded⟩
        obtain ⟨u, ds, parameters, children, rfl⟩ := reread?_eq_some_iff.mp back
        obtain ⟨p, rs, params, blocks, rfl⟩ := (decode_eq_ok_iff unseen).mp decoded
        obtain ⟨readable, rfl⟩ := (k.ofJson_reread_iff i).mp ⟨u, parameters, params⟩
        obtain ⟨below, rfl⟩ := (decodeAll_reread_iff distinct).mp ⟨ds, children, blocks⟩
        exact ⟨⟨readable, below, Block.values_nil⟩, rfl⟩
      · rintro ⟨⟨readable, below, -⟩, rfl⟩
        obtain ⟨u, parameters, params⟩ := (k.ofJson_reread_iff i).mpr ⟨readable, rfl⟩
        obtain ⟨ds, children, blocks⟩ := (decodeAll_reread_iff distinct).mpr ⟨below, rfl⟩
        exact ⟨_, reread?_eq_some_iff.mpr ⟨u, ds, parameters, children, rfl⟩,
          (decode_eq_ok_iff unseen).mpr ⟨_, _, params, blocks, rfl⟩⟩

theorem decodeAll_reread_iff {seen : List BlockId} :
    ∀ {bs : List Block} {r : List Block × List BlockId}, ((Block.idsAll bs).reverse ++ seen).Nodup →
      ((∃ ds, rereadAll? (ofBlocks bs) = some ds ∧ decodeAll seen ds = .ok r) ↔
        Block.Values Value.IsReadable bs ∧
          r = (Block.normalAll (Block.mapValuesAll Value.restored bs),
            (Block.idsAll bs).reverse ++ seen))
  | [], r, _ => by
      simp [ofBlocks, rereadAll?, decodeAll, Block.values_nil, Block.mapValuesAll, Block.normalAll,
        Block.idsAll, Block.preorderAll, eq_comm]
  | b :: bs, r, distinct => by
      rw [Block.reverse_idsAll_cons_append] at distinct ⊢
      have split : Block.Values Value.IsReadable (b :: bs) ↔ _ := @Block.values_append _ [b] bs
      rw [ofBlocks, Block.mapValuesAll, Block.normalAll, split]
      constructor
      · rintro ⟨es, back, decoded⟩
        obtain ⟨e, others, one, more, rfl⟩ := rereadAll?_cons_eq_some_iff.mp back
        obtain ⟨c, rs, head, tail, rfl⟩ := decodeAll_cons_eq_ok_iff.mp decoded
        obtain ⟨readable, rfl⟩ := (decode_reread_iff distinct.of_append_right).mp ⟨e, one, head⟩
        obtain ⟨later, rfl⟩ := (decodeAll_reread_iff distinct).mp ⟨others, more, tail⟩
        exact ⟨⟨readable, later⟩, rfl⟩
      · rintro ⟨⟨readable, later⟩, rfl⟩
        obtain ⟨e, one, head⟩ := (decode_reread_iff distinct.of_append_right).mpr ⟨readable, rfl⟩
        obtain ⟨others, more, tail⟩ := (decodeAll_reread_iff distinct).mpr ⟨later, rfl⟩
        exact ⟨_, rereadAll?_cons_eq_some_iff.mpr ⟨e, others, one, more, rfl⟩,
          decodeAll_cons_eq_ok_iff.mpr ⟨_, _, head, tail, rfl⟩⟩

end

end BlockDocument

namespace Block

mutual

theorem normal_mapValues_iff (f : Value → Value) : ∀ b : Block,
    (b.mapValues f).normal = b.normal ↔ Values (fun v => f v = v) [b]
  | ⟨i, k, cs⟩ => by
      have inner := normalAll_mapValuesAll_iff f cs
      rw [values_cons, mapValues, normal, normal, mk.injEq, inner, k.normal_mapValues_iff f]
      simp [values_nil]

theorem normalAll_mapValuesAll_iff (f : Value → Value) : ∀ bs : List Block,
    normalAll (mapValuesAll f bs) = normalAll bs ↔ Values (fun v => f v = v) bs
  | [] => by simp [mapValuesAll, values_nil]
  | b :: bs => by
      have split : Values (fun v => f v = v) (b :: bs) ↔ _ := @values_append _ [b] bs
      rw [split, mapValuesAll, normalAll, normalAll, List.cons.injEq, normal_mapValues_iff f b,
        normalAll_mapValuesAll_iff f bs]

end

end Block

/-! ## Lines -/

namespace LineDocument

/-- The document as it is read back from its text. -/
def reread? (d : LineDocument) : Option LineDocument :=
  (BlockDocument.rereadAll? d.blocks).map fun blocks => { d with blocks }

theorem height_toJson_le_iff {d : LineDocument} {depth : Nat} :
    d.toJson.height ≤ depth + 2 ↔ ∀ b ∈ d.blocks, b.toJson.height ≤ depth := by
  simp [toJson, Json.height, Json.heightMembers, Json.natural, Json.whole,
    BlockDocument.toJsonAll_eq_map, Json.heightItems_le_iff]

theorem two_le_height_toJson (d : LineDocument) : 2 ≤ d.toJson.height := by
  simp only [toJson, Json.height, Json.heightMembers]
  omega

/-- The fields of a written line document. -/
theorem fields?_toJson (d : LineDocument) (depth : Nat) :
    ∃ t, Json.Node.fields? fieldNames (depth + 1) (Json.parsed d.toJson) = some (depth, t) ∧
      ∀ k, t.get? k = (Table.find k [("name", Json.string d.name),
        ("description", .string d.description), ("enabled", .bool d.enabled),
        ("lineNumber", .natural d.lineNumber),
        ("blocks", .array (BlockDocument.toJsonAll d.blocks))]).map Json.parsed :=
  Json.fields?_parsed (by simp) (by simp [fieldNames]) depth

/-- **A line document is read back if its containers are not too many inside one another.** -/
theorem read_toJson (depth : Nat) {d : LineDocument} (small : d.lineNumber ≤ Json.maxWord) :
    read depth (Json.parsed d.toJson) =
      lift (if d.toJson.height ≤ depth then d.reread? else none) := by
  have deep := d.two_le_height_toJson
  cases depth with
  | zero =>
      rw [if_neg (by omega), read, toJson, Json.parsed, Json.Node.fields?]
      rfl
  | succ depth =>
      obtain ⟨t, fields, get⟩ := d.fields?_toJson depth
      have name : BlockDocument.field? t "name" Json.Node.text? = some d.name := by
        rw [BlockDocument.field?, get]
        simp [Table.find, Json.parsed, Json.Node.text?]
      have description : BlockDocument.fieldOr t "description" "" Json.Node.text? =
          some d.description := by
        rw [BlockDocument.fieldOr, get]
        simp [Table.find, Json.parsed, Json.Node.text?]
      have enabled : BlockDocument.fieldOr t "enabled" true Json.Node.bool? = some d.enabled := by
        rw [BlockDocument.fieldOr, get]
        simp [Table.find, Json.parsed, Json.Node.bool?]
      have lineNumber : BlockDocument.fieldOr t "lineNumber" 0 (Json.Node.natural? Json.maxWord) =
          some d.lineNumber := by
        have value := Json.numeral?_natural small
        rw [BlockDocument.fieldOr, get]
        simp [Table.find, Json.natural, Json.whole, Json.parsed, Json.Number.parsed, Text.whole,
          value, Json.Node.natural?, small]
      have blocks : t.get? "blocks" =
          some (.array (d.blocks.map fun b => Json.parsed b.toJson)) := by
        rw [get]
        simp [Table.find, Json.parsed, Json.parsedItems_eq_map, BlockDocument.toJsonAll_eq_map]
      rw [read, fields, BlockDocument.lift_some_bind]
      simp only [name, description, enabled, lineNumber, blocks, BlockDocument.lift_some_bind]
      cases depth with
      | zero =>
          rw [if_neg (by omega)]
          rfl
      | succ depth =>
          have inner :
              (d.blocks.map fun b => Json.parsed b.toJson).mapM (BlockDocument.read depth) =
                lift (if ∀ b ∈ d.blocks, b.toJson.height ≤ depth
                  then BlockDocument.rereadAll? d.blocks else none) := by
            rw [List.mapM_map, BlockDocument.rereadAll?_eq_mapM]
            exact BlockDocument.mapM_eq_lift fun b _ => b.read_toJson depth
          simp only [inner, height_toJson_le_iff, BlockDocument.pure_eq_lift,
            BlockDocument.lift_bind, reread?]
          split
          · cases BlockDocument.rereadAll? d.blocks <;> rfl
          · rfl

end LineDocument

end Blockwork
