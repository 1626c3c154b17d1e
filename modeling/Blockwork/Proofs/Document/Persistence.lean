import Blockwork.Proofs.Document.Rereading
import Blockwork.Proofs.Timestamp
import Blockwork.Proofs.Validation

/-!
# Which scripts their text keeps

A script that passes validation has distinct identities and no empty wait, so its document can be
decoded.  Whether the text of the document can be read, and read as the same script, is another
matter, on which validation is silent except about number literals.  `Script.restores_iff` says what
it takes, for every valid script: no more containers inside one another than a reader enters, and
numbers that come through, in globals, coordinates, angles, volumes, pitches and spreads alike
(`Script.IsPersistent`).

## What is load-bearing

* `ofText_toText_eq_ok_iff`: what the text of a script is read back as, if it is, for every script
  with distinct identities.  Each value is replaced by what it is read back as, and lines stay in
  their order because they are written with their numbers.
* `height_document_le_iff`: the bound on the whole document is a bound on each line and one on each
  global, which is how the reader applies it.
* `Instruction.normal_of_conflict?`: in a valid script the normal spelling changes nothing but a
  call whose result has no name.
-/

namespace Blockwork

open BlockDocument (lift)

/-! ## Lines -/

/-- The line with its values replaced, its blocks in their normal spelling. -/
def Line.mapValues (f : Value → Value) (l : Line) : Line :=
  { l with blocks := Block.normalAll (Block.mapValuesAll f l.blocks) }

/-- The line with its blocks in their normal spelling. -/
def Line.normal (l : Line) : Line := { l with blocks := Block.normalAll l.blocks }

namespace LineDocument

theorem lineNumber_lt {n : Nat} {ls : List Line} :
    ∀ d ∈ ofLines n ls, d.lineNumber < n + ls.length := by
  induction ls generalizing n with
  | nil => simp [ofLines]
  | cons l rest ih =>
      rw [ofLines, List.forall_mem_cons, List.length_cons]
      refine ⟨?_, fun d hd => ?_⟩
      · simp [ofLine]
      · have later := ih d hd
        omega

theorem decodeAll_cons_eq_ok_iff {seen : List BlockId} {d : LineDocument} {ds : List LineDocument}
    {r : List Line} :
    decodeAll seen (d :: ds) = .ok r ↔ ∃ bs rest, BlockDocument.decodeAll seen d.blocks = .ok bs ∧
      decodeAll bs.2 ds = .ok rest ∧ d.withBlocks bs.1 :: rest = r := by
  rw [decodeAll]
  cases BlockDocument.decodeAll seen d.blocks with
  | error e => simp
  | ok bs =>
      obtain ⟨bs, seen⟩ := bs
      cases rest : decodeAll seen ds <;> simp [rest]

theorem mapM_reread_cons_eq_some_iff {d : LineDocument} {ds es : List LineDocument} :
    (d :: ds).mapM reread? = some es ↔ ∃ blocks rest,
      BlockDocument.rereadAll? d.blocks = some blocks ∧ ds.mapM reread? = some rest ∧
        { d with blocks } :: rest = es := by
  simp [reread?, Option.bind_eq_some_iff]

/-- Lines that are numbered in order are read back in that order. -/
theorem inOrder_reread {n : Nat} {ls : List Line} {ds : List LineDocument}
    (back : (ofLines n ls).mapM reread? = some ds) : inOrder ds = ds := by
  have numbered : ds.Pairwise (fun d e => d.lineNumber ≤ e.lineNumber) ∧
      ∀ d ∈ ds, n ≤ d.lineNumber := by
    induction ls generalizing n ds with
    | nil =>
        obtain rfl : [] = ds := by simpa [ofLines] using back
        simp
    | cons l rest ih =>
        obtain ⟨blocks, es, -, more, rfl⟩ := mapM_reread_cons_eq_some_iff.mp back
        obtain ⟨ordered, least⟩ := ih more
        refine ⟨List.pairwise_cons.mpr ⟨fun e he => ?_, ordered⟩, ?_⟩
        · exact Nat.le_of_succ_le (least e he)
        · exact List.forall_mem_cons.mpr ⟨Nat.le_refl n, fun e he => Nat.le_of_succ_le (least e he)⟩
  exact List.mergeSort_of_pairwise (numbered.1.imp fun h => decide_eq_true h)

/-- **Decoding what is read back of numbered lines.** -/
theorem decodeAll_reread_iff {seen : List BlockId} {n : Nat} {ls r : List Line}
    (distinct : ((Block.idsAll (ls.flatMap Line.blocks)).reverse ++ seen).Nodup) :
    (∃ ds, (ofLines n ls).mapM reread? = some ds ∧ decodeAll seen ds = .ok r) ↔
      Block.Values Value.IsReadable (ls.flatMap Line.blocks) ∧
        r = ls.map (Line.mapValues Value.restored) := by
  induction ls generalizing seen n r with
  | nil => simp [ofLines, decodeAll, Block.values_nil, eq_comm]
  | cons l rest ih =>
      rw [List.flatMap_cons, Block.idsAll_append, List.reverse_append,
        List.append_assoc] at distinct
      rw [List.flatMap_cons, Block.values_append, ofLines, List.map_cons]
      have first {bs : List Block × List BlockId} :=
        BlockDocument.decodeAll_reread_iff (r := bs) distinct.of_append_right
      constructor
      · rintro ⟨es, back, decoded⟩
        obtain ⟨blocks, ds, one, more, rfl⟩ := mapM_reread_cons_eq_some_iff.mp back
        obtain ⟨bs, ls, head, tail, rfl⟩ := decodeAll_cons_eq_ok_iff.mp decoded
        obtain ⟨readable, rfl⟩ := first.mp ⟨blocks, one, head⟩
        obtain ⟨later, rfl⟩ := (ih distinct).mp ⟨ds, more, tail⟩
        exact ⟨⟨readable, later⟩, rfl⟩
      · rintro ⟨⟨readable, later⟩, rfl⟩
        obtain ⟨blocks, one, head⟩ := first.mpr ⟨readable, rfl⟩
        obtain ⟨ds, more, tail⟩ := (ih distinct).mpr ⟨later, rfl⟩
        exact ⟨_, mapM_reread_cons_eq_some_iff.mpr ⟨blocks, ds, one, more, rfl⟩,
          decodeAll_cons_eq_ok_iff.mpr ⟨_, _, head, tail, rfl⟩⟩

end LineDocument

/-! ## Scripts -/

namespace ScriptDocument

theorem field?_ownerId {d : ScriptDocument} {t : Table String Json.Node}
    (get : ∀ k, k ≠ "globalVariables" → t.get? k = (Table.find k d.headMembers).map Json.parsed) :
    BlockDocument.field? t "ownerId" BlockDocument.uuid? = some d.ownerId := by
  rw [BlockDocument.field?, get _ (by decide)]
  simp [headMembers, Table.find, Json.parsed, BlockDocument.uuid?, Json.Node.text?, Uuid.parse?_text]

/-- The fields of a script other than its variables are read back. -/
theorem readHead_of_get? {d : ScriptDocument} (depth : Nat) {t : Table String Json.Node}
    (proper : d.lastModified.IsProper) (small : ∀ l ∈ d.lines, l.lineNumber ≤ Json.maxWord)
    (get : ∀ k, k ≠ "globalVariables" → t.get? k = (Table.find k d.headMembers).map Json.parsed) :
    readHead (depth + 1) t = lift ((if ∀ l ∈ d.lines, l.toJson.height ≤ depth
      then d.lines.mapM LineDocument.reread? else none).map fun lines =>
        { d with lines, globalVariables := {} }) := by
  have ownerId := field?_ownerId get
  have ownerName : BlockDocument.fieldOr t "ownerName" "" Json.Node.text? = some d.ownerName := by
    rw [BlockDocument.fieldOr, get _ (by decide)]
    simp [headMembers, Table.find, Json.parsed, Json.Node.text?]
  have enabled : BlockDocument.fieldOr t "enabled" true Json.Node.bool? = some d.enabled := by
    rw [BlockDocument.fieldOr, get _ (by decide)]
    simp [headMembers, Table.find, Json.parsed, Json.Node.bool?]
  have lastModified : BlockDocument.field? t "lastModified" timestamp? = some d.lastModified := by
    rw [BlockDocument.field?, get _ (by decide)]
    simp [headMembers, Table.find, Json.parsed, timestamp?, Json.Node.text?,
      Timestamp.parse?_text proper]
  have boundWorld : BlockDocument.fieldOr t "boundWorld" none
      (Json.Node.nullable? Json.Node.text?) = some d.boundWorld := by
    rw [BlockDocument.fieldOr, get _ (by decide)]
    cases world : d.boundWorld <;>
      simp [headMembers, world, Table.find, Json.parsed, Json.Node.nullable?, Json.Node.text?]
  have lines : t.get? "lines" = some (.array (d.lines.map fun l => Json.parsed l.toJson)) := by
    rw [get _ (by decide), find_headMembers_lines, Option.map_some, Json.parsed,
      Json.parsedItems_eq_map, List.map_map]
    rfl
  have read : (d.lines.map fun l => Json.parsed l.toJson).mapM (LineDocument.read depth) =
      lift (if ∀ l ∈ d.lines, l.toJson.height ≤ depth then d.lines.mapM LineDocument.reread?
        else none) := by
    rw [List.mapM_map]
    exact BlockDocument.mapM_eq_lift fun l hl => LineDocument.read_toJson depth (small l hl)
  rw [readHead]
  simp only [ownerId, ownerName, enabled, lastModified, boundWorld, lines, read,
    BlockDocument.lift_some_bind, BlockDocument.pure_eq_lift]
  rw [BlockDocument.lift_bind]
  split
  · cases d.lines.mapM LineDocument.reread? <;> rfl
  · rfl

/-- **A script document is read back part by part**: its lines, if their containers are not too many
inside one another, and its variables. -/
theorem read_eq {d : ScriptDocument} (depth : Nat) (proper : d.lastModified.IsProper)
    (small : ∀ l ∈ d.lines, l.lineNumber ≤ Json.maxWord) :
    read (depth + 2) (Json.parsed d.toJson) =
      lift ((if ∀ l ∈ d.lines, l.toJson.height ≤ depth then d.lines.mapM LineDocument.reread?
        else none).bind fun lines =>
          (Scalar.readTable? (depth + 1) (Json.parsed (variablesJson d.globalVariables))).map
            fun globalVariables => { d with lines, globalVariables }) := by
  obtain ⟨t, fields, get⟩ := d.fields?_toJson (depth + 1)
  have head := readHead_of_get? depth proper small fun k other => by
    rw [get, if_neg other]
  have stored : BlockDocument.fieldOr t "globalVariables" {} (Scalar.readTable? (depth + 1)) =
      Scalar.readTable? (depth + 1) (Json.parsed (variablesJson d.globalVariables)) := by
    rw [BlockDocument.fieldOr, get, if_pos rfl]
    rfl
  rw [read, fields, BlockDocument.lift_some_bind]
  dsimp only
  rw [head, stored]
  simp only [BlockDocument.pure_eq_lift, BlockDocument.lift_bind]
  split
  · cases d.lines.mapM LineDocument.reread? with
    | none => rfl
    | some lines =>
        cases Scalar.readTable? (depth + 1) (Json.parsed (variablesJson d.globalVariables)) <;> rfl
  · rfl

/-- The head names the owner of the field of that name. -/
theorem delivers_ownerId_readHead {t : Table String Json.Node} {o : ActorId} (depth : Nat)
    (field : BlockDocument.field? t "ownerId" BlockDocument.uuid? = some o) :
    BlockDocument.Delivers (fun d => d.ownerId = o) (readHead depth t) := by
  unfold readHead
  rw [field, BlockDocument.lift_some_bind]
  iterate 4 refine .bind (BlockDocument.delivers_true _) fun _ _ => ?_
  split
  · exact .bind (BlockDocument.delivers_true _) fun _ _ => .of_pure rfl
  · exact .bind (BlockDocument.delivers_true _) fun _ _ => .of_pure rfl
  · exact .bind (BlockDocument.delivers_true _) fun _ _ => .of_pure rfl

/-- Whatever a document is read back as has its owner. -/
theorem delivers_ownerId_read (d : ScriptDocument) (depth : Nat) :
    BlockDocument.Delivers (fun back => back.ownerId = d.ownerId)
      (read (depth + 1) (Json.parsed d.toJson)) := by
  obtain ⟨t, fields, get⟩ := d.fields?_toJson depth
  have owner : BlockDocument.field? t "ownerId" BlockDocument.uuid? = some d.ownerId :=
    field?_ownerId fun k other => by rw [get, if_neg other]
  rw [read, fields, BlockDocument.lift_some_bind]
  refine .bind (delivers_ownerId_readHead depth owner) fun head same => ?_
  exact .bind (BlockDocument.delivers_true _) fun _ _ => .of_pure same

theorem toScript_eq_ok_iff {d : ScriptDocument} {s : Script} :
    d.toScript = .ok s ↔ ∃ lines,
      LineDocument.decodeAll [] (LineDocument.inOrder d.lines) = .ok lines ∧
      { ownerId := d.ownerId
        ownerName := d.ownerName
        enabled := d.enabled
        boundWorld := d.boundWorld
        lastModified := d.lastModified
        lines := lines
        globals := d.globalVariables : Script }.rebuildFunctions = s := by
  rw [toScript]
  cases LineDocument.decodeAll [] (LineDocument.inOrder d.lines) <;> simp

end ScriptDocument

namespace Script

theorem ofNode_eq_ok_iff {n : Json.Node} {supply : Uuid.Supply} {x : Option ScriptDocument}
    (steady : ScriptDocument.read Json.Node.maxDepth n = lift x) {r : Script × Uuid.Supply} :
    ofNode n supply = .ok r ↔ ∃ d s, x = some d ∧ d.toScript = .ok s ∧ (s, supply) = r := by
  rw [ofNode, steady]
  cases x with
  | none => simp [lift, StateT.run]
  | some d => cases script : d.toScript <;> simp [lift, StateT.run, script, Except.map]

/-- Whatever a script is read back as has its owner. -/
theorem ownerId_of_ofText_toText {s : Script} {supply : Uuid.Supply} {r : Script × Uuid.Supply}
    (back : ofText s.toText supply = .ok r) : r.1.ownerId = s.ownerId := by
  rw [ofText_toText, ofNode] at back
  split at back
  · cases back
  · next d supply' read =>
    have owner : d.ownerId = s.ownerId :=
      (ScriptDocument.ofScript s).delivers_ownerId_read _ supply d supply' read
    unfold ScriptDocument.toScript at back
    split at back
    · cases back
    · cases back
      exact owner

/-- The script that a script is read back as: its blocks in their normal spelling, and its functions
collected anew. -/
def restored (s : Script) : Script := { s with lines := s.lines.map Line.normal }.rebuildFunctions

/-- The depth that is left for the lines in a document. -/
def linesDepth : Nat := 125

/-- **What the text of a script is read back as.** -/
theorem ofText_toText_eq_ok_iff {s : Script} (distinct : (Block.idsAll s.blocks).Nodup)
    (proper : s.lastModified.IsProper) (countable : s.lines.length ≤ Json.maxWord + 1)
    (supply : Uuid.Supply) {r : Script × Uuid.Supply} :
    ofText s.toText supply = .ok r ↔
      (∀ l ∈ LineDocument.ofLines 0 s.lines, l.toJson.height ≤ linesDepth) ∧
        Block.Values Value.IsReadable s.blocks ∧
        ∃ g, Scalar.readTable? (globalsDepth + 1)
            (Json.parsed (ScriptDocument.variablesJson s.globals)) = some g ∧
          r = ({ s with
            lines := s.lines.map (Line.mapValues Value.restored), globals := g }.rebuildFunctions,
            supply) := by
  have small : ∀ l ∈ (ScriptDocument.ofScript s).lines, l.lineNumber ≤ Json.maxWord := fun l hl =>
    Nat.le_of_lt_succ (Nat.lt_of_lt_of_le (LineDocument.lineNumber_lt l hl) (by omega))
  have distinct : ((Block.idsAll s.blocks).reverse ++ []).Nodup := by
    rwa [List.append_nil, List.nodup_reverse]
  have lines {ls : List Line} := LineDocument.decodeAll_reread_iff (n := 0) (r := ls) distinct
  have read := ScriptDocument.read_eq linesDepth proper small
  rw [ofText_toText, ofNode_eq_ok_iff read]
  simp only [Option.bind_eq_some_iff, Option.map_eq_some_iff, Option.ite_none_right_eq_some,
    ScriptDocument.toScript_eq_ok_iff]
  constructor
  · rintro ⟨-, -, ⟨ds, ⟨shallow, back⟩, g, read, rfl⟩, ⟨ls, decoded, rfl⟩, rfl⟩
    rw [LineDocument.inOrder_reread back] at decoded
    obtain ⟨readable, rfl⟩ := lines.mp ⟨ds, back, decoded⟩
    exact ⟨shallow, readable, g, read, rfl⟩
  · rintro ⟨shallow, readable, g, read, rfl⟩
    obtain ⟨ds, back, decoded⟩ := lines.mpr ⟨readable, rfl⟩
    refine ⟨_, _, ⟨ds, ⟨shallow, back⟩, g, read, rfl⟩, ⟨_, ?_, rfl⟩, rfl⟩
    rw [LineDocument.inOrder_reread back]
    exact decoded

end Script

/-! ## Heights -/

namespace Scalar

mutual

theorem height_toJson : ∀ v : Scalar, v.toJson.height = v.height
  | .boolean b => by simp [toJson, Json.height, height]
  | .number x => by
      unfold toJson Json.real
      cases Decimal.document? x <;> simp [Json.height, height]
  | .text t => by simp [toJson, Json.height, height]
  | .list items => by rw [toJson, Json.height, heightItems_toJsonAll items, height]

theorem heightItems_toJsonAll : ∀ items : List Scalar,
    Json.heightItems (toJsonAll items) = heightAll items
  | [] => rfl
  | v :: rest => by
      rw [toJsonAll, Json.heightItems, height_toJson v, heightItems_toJsonAll rest, heightAll]

end

end Scalar

namespace Script

/-- The containers of a document are those of its lines and those of its globals. -/
theorem height_document_le_iff (s : Script) :
    (ScriptDocument.ofScript s).toJson.height ≤ Json.Node.maxDepth ↔
      (∀ l ∈ LineDocument.ofLines 0 s.lines, l.toJson.height ≤ linesDepth) ∧
        ∀ name v, s.globals.get? name = some v → v.height ≤ globalsDepth := by
  have lines :
      Json.height (.array ((LineDocument.ofLines 0 s.lines).map LineDocument.toJson)) ≤ 126 ↔
        ∀ l ∈ LineDocument.ofLines 0 s.lines, l.toJson.height ≤ linesDepth := by
    rw [Json.height, linesDepth, Nat.succ_le_succ_iff, Json.heightItems_le_iff, List.forall_mem_map]
  have globals : Json.height (ScriptDocument.variablesJson s.globals) ≤ 126 ↔
      ∀ name v, s.globals.get? name = some v → v.height ≤ globalsDepth := by
    rw [ScriptDocument.variablesJson, Json.height, globalsDepth, Nat.succ_le_succ_iff,
      Json.heightMembers_le_iff, Prod.forall]
    simp only [Table.mem_toList_iff, Table.get?_map, Option.map_eq_some_iff]
    constructor
    · intro shallow name v hv
      rw [← Scalar.height_toJson]
      exact shallow name _ ⟨v, hv, rfl⟩
    · rintro shallow name _ ⟨v, hv, rfl⟩
      rw [Scalar.height_toJson]
      exact shallow name v hv
  rw [ScriptDocument.toJson_eq, Json.height, Json.Node.maxDepth, Nat.succ_le_succ_iff,
    Json.heightMembers_le_iff, ← lines, ← globals]
  cases world : s.boundWorld <;>
    simp [ScriptDocument.headMembers, ScriptDocument.ofScript, world, Json.height]

end Script

/-! ## Spellings -/

/-- A valid instruction is changed by its normal spelling only if it is a call whose result has no
name. -/
theorem Instruction.normal_of_conflict? {i : Instruction} (none : i.conflict? = none) :
    i.normal = i ∨ ∃ c, i = .callFunction c ∧ c.result = some "" ∧
      i.normal = .callFunction { c with result := Option.none } := by
  cases i with
  | callFunction c =>
      by_cases blank : c.result = some ""
      · exact .inr ⟨c, rfl, blank, by simp [normal, blank]⟩
      · exact .inl (by simp [normal, blank])
  | repeat_ r =>
      have wait : r.interval ≠ 0 := by
        intro zero
        simp [conflict?, zero] at none
      exact .inl (by simp [normal, wait])
  | _ => exact .inl rfl

theorem Block.conflict?_of_ownProblems {b : Block} (none : b.ownProblems = []) :
    b.instruction.conflict? = Option.none := by
  simp only [ownProblems, paramProblems, List.append_eq_nil_iff] at none
  obtain ⟨⟨⟨-, conflict⟩, -⟩, -⟩ := none
  rwa [Option.toList_eq_nil_iff, Option.map_eq_none_iff] at conflict

/-! ## Persistence -/

namespace Block

theorem values_iff_contents {P : Value → Prop} {bs : List Block} :
    Values P bs ↔ ∀ v ∈ (preorderAll bs).flatMap fun n => n.instruction.contents, P v := by
  simp only [Values, List.mem_flatMap]
  constructor
  · rintro each v ⟨n, inside, here⟩
    exact each n inside v here
  · intro each n inside v here
    exact each v ⟨n, inside, here⟩

theorem values_flatMap {P : Value → Prop} {ls : List Line} :
    Values P (ls.flatMap Line.blocks) ↔ ∀ l ∈ ls, Values P l.blocks := by
  induction ls with
  | nil => simp [values_nil]
  | cons l rest ih => rw [List.flatMap_cons, values_append, ih, List.forall_mem_cons]

theorem values_and {P Q R : Value → Prop} (both : ∀ v, R v ↔ P v ∧ Q v) {bs : List Block} :
    Values R bs ↔ Values P bs ∧ Values Q bs := by
  simp only [Values, both, forall_and]

end Block

theorem Line.map_mapValues_iff (f : Value → Value) {ls : List Line} :
    ls.map (Line.mapValues f) = ls.map Line.normal ↔
      Block.Values (fun v => f v = v) (ls.flatMap Line.blocks) := by
  rw [List.map_inj_left, Block.values_flatMap]
  refine forall_congr' fun l => forall_congr' fun _ => ?_
  rw [← Block.normalAll_mapValuesAll_iff, mapValues, normal, mk.injEq]
  simp

/-- A value is read back as itself exactly if its numbers come through. -/
theorem Value.isExact_iff_restored (v : Value) : v.IsExact ↔ v.IsReadable ∧ v.restored = v := by
  rw [← returned?_eq_some_iff, IsReadable, restored]
  cases v.returned? <;> simp

namespace Script

/-- A script that its document keeps: its containers are not too many inside one another, and every
number it holds comes through the text. -/
structure IsPersistent (s : Script) : Prop where
  /-- The document can be read to its innermost container. -/
  shallow : (ScriptDocument.ofScript s).toJson.height ≤ Json.Node.maxDepth
  /-- The numbers in globals come through. -/
  globals : ∀ name v, s.globals.get? name = some v → ∀ x ∈ v.numbers, Json.IsExact x
  /-- The numbers in blocks come through, at any depth and in any parameter. -/
  values : Block.Values Value.IsExact s.blocks

theorem rebuildFunctions_eq_restored_iff {s : Script} {lines : List Line}
    {globals : Table String Scalar} :
    { s with lines, globals }.rebuildFunctions = s.restored ↔
      lines = s.lines.map Line.normal ∧ globals = s.globals := by
  constructor
  · intro same
    exact ⟨congrArg Script.lines same, congrArg Script.globals same⟩
  · rintro ⟨rfl, rfl⟩
    rfl

/-- **A valid script is read back from its text exactly if it is persistent.** -/
theorem restores_iff {s : Script} (valid : s.validate = .ok ()) (proper : s.lastModified.IsProper)
    (countable : s.lines.length ≤ 2 ^ 64) (supply : Uuid.Supply) :
    (ofText s.toText supply = .ok (s.restored, supply) ↔ s.IsPersistent) ∧
      ∀ n ∈ Block.preorderAll s.blocks, n.instruction.normal = n.instruction ∨
        ∃ c, n.instruction = .callFunction c ∧ c.result = some "" ∧
          n.instruction.normal = .callFunction { c with result := none } := by
  obtain ⟨distinct, own⟩ := sound_of_validate valid
  refine ⟨?_, fun n inside =>
    Instruction.normal_of_conflict? (Block.conflict?_of_ownProblems (own n inside))⟩
  have globals := Scalar.readTable?_parsed_iff globalsDepth s.globals
  have values : Block.Values Value.IsExact s.blocks ↔ Block.Values Value.IsReadable s.blocks ∧
      s.lines.map (Line.mapValues Value.restored) = s.lines.map Line.normal := by
    rw [Line.map_mapValues_iff]
    exact Block.values_and Value.isExact_iff_restored
  rw [ofText_toText_eq_ok_iff distinct proper countable]
  constructor
  · rintro ⟨shallow, readable, g, read, same⟩
    obtain ⟨lines, rfl⟩ := rebuildFunctions_eq_restored_iff.mp (Prod.mk.inj same).1.symm
    have stored := globals.mp read
    exact ⟨(height_document_le_iff s).mpr ⟨shallow, fun name v hv => (stored name v hv).shallow⟩,
      fun name v hv => (stored name v hv).exact, values.mpr ⟨readable, lines⟩⟩
  · rintro ⟨shallow, exact_, kept⟩
    obtain ⟨shallow, low⟩ := (height_document_le_iff s).mp shallow
    obtain ⟨readable, lines⟩ := values.mp kept
    refine ⟨shallow, readable, s.globals, globals.mpr fun name v hv =>
      ⟨exact_ name v hv, low name v hv⟩, ?_⟩
    rw [rebuildFunctions_eq_restored_iff.mpr ⟨lines, rfl⟩]

/-- A script that turns whoever joins. -/
def turning (yaw : Float32) : Script :=
  { ownerId := ⟨1⟩
    ownerName := "ada"
    lastModified := ⟨0, 0⟩
    lines := [{
      name := "turn"
      blocks := [
        ⟨⟨2⟩, .event (some .join), []⟩,
        ⟨⟨3⟩, .teleport (some (.location { x := 0.5, yaw })), []⟩] }] }

/-- Validation does not look at the angle. -/
theorem validate_turning (yaw : Float32) : (turning yaw).validate = .ok () := by
  with_unfolding_all rfl

theorem values_turning_iff {P : Value → Prop} (yaw : Float32) :
    Block.Values P (turning yaw).blocks ↔ P (.location { x := 0.5, yaw }) := by
  rw [Block.values_iff_contents]
  exact List.forall_mem_singleton

/-- A quarter turn is kept. -/
theorem isPersistent_turning : (turning 90).IsPersistent := by
  have half : Json.IsExact 0.5 := ⟨"0.5", .real 0.5, by decide +kernel, rfl, rfl⟩
  have zero : Json.IsExact 0 := ⟨"0.0", .real 0, by decide +kernel, rfl, rfl⟩
  have quarter : Json.IsExactSingle 90 :=
    ⟨"90.0", .real 90, by decide +kernel, rfl, by decide +kernel⟩
  have level : Json.IsExactSingle 0 := ⟨"0.0", .real 0, by decide +kernel, rfl, by decide +kernel⟩
  have place : Value.IsExact (.location { x := 0.5, yaw := 90 }) :=
    { literal := by
        intro _ same
        cases same
      doubles := by simp [Value.doubles, half, zero]
      singles := by simp [Value.singles, quarter, level] }
  refine ⟨by decide +kernel, ?_, (values_turning_iff 90).mpr place⟩
  intro name v none
  cases none

/-- **Validation lets an endless turn pass that cannot be read back**, where a quarter turn can. -/
theorem restored_turning :
    (∀ yaw, (turning yaw).validate = .ok () ∧ (turning yaw).lastModified.IsProper ∧
        (turning yaw).lines.length ≤ 2 ^ 64) ∧
      ofText (turning 90).toText ⟨0⟩ = .ok ((turning 90).restored, ⟨0⟩) ∧
      ofText (turning (Binary.narrow 1e300)).toText ⟨0⟩ ≠
        .ok ((turning (Binary.narrow 1e300)).restored, ⟨0⟩) := by
  have proper : Timestamp.IsProper ⟨0, 0⟩ := ⟨by decide, .inl (by decide)⟩
  have short : 1 ≤ 2 ^ 64 := by decide
  have back (yaw : Float32) :
      ofText (turning yaw).toText ⟨0⟩ = .ok ((turning yaw).restored, ⟨0⟩) ↔
        (turning yaw).IsPersistent :=
    (restores_iff (validate_turning yaw) proper short ⟨0⟩).1
  refine ⟨fun yaw => ⟨validate_turning yaw, proper, short⟩, (back 90).mpr isPersistent_turning, ?_⟩
  intro read
  have place := (values_turning_iff _).mp ((back _).mp read).values
  obtain ⟨t, n, shown, -⟩ := place.singles (Binary.narrow 1e300) (by simp [Value.singles])
  have none : Decimal.document? (Binary.widen (Binary.narrow 1e300)) = none := by decide +kernel
  rw [none] at shown
  cases shown

end Script

end Blockwork
