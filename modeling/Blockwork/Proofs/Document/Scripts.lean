import Blockwork.Document.Script
import Blockwork.Proofs.Document.Scalars
import Mathlib.Data.Nat.Init

/-!
# Reading back a script

A script is written as a document and read from one.  Its globals are one member of the document
among seven, and the reader takes them last, so a script is read back in two independent halves: the
*head*, which is everything else, and the table of globals.  Changing the globals of a script
changes nothing about its head (`ofText_toText_iff`), which is what makes it possible to speak about
a script whose globals change while it runs.

A reader may hand out new identities, for blocks that have none.  The documents of scripts name
every block, so reading one is `Steady`: it hands out nothing and does not depend on the supply.
-/

namespace Blockwork

open BlockDocument (Reader lift)

/-! ## Readers that hand out nothing -/

/-- A reader that hands out no identities. -/
def Steady {α : Type} (r : Reader α) : Prop := ∃ x : Option α, r = lift x

namespace Steady

variable {α β : Type}

theorem of_lift (x : Option α) : Steady (lift x) := ⟨x, rfl⟩

theorem of_pure (a : α) : Steady (pure a : Reader α) := ⟨some a, rfl⟩

theorem of_failure : Steady (failure : Reader α) := ⟨none, rfl⟩

theorem bind {r : Reader α} {f : α → Reader β} (hr : Steady r) (hf : ∀ a, Steady (f a)) :
    Steady (r >>= f) := by
  obtain ⟨x, rfl⟩ := hr
  choose y hy using hf
  refine ⟨x.bind y, ?_⟩
  funext supply
  cases x with
  | none => rfl
  | some a => exact congrFun (hy a) supply

theorem mapM {f : α → Reader β} {l : List α} (hf : ∀ a ∈ l, Steady (f a)) : Steady (l.mapM f) := by
  induction l with
  | nil => exact of_pure []
  | cons a l ih =>
      rw [List.mapM_cons]
      refine (hf a (List.mem_cons_self ..)).bind fun b => ?_
      exact (ih fun a ha => hf a (List.mem_cons_of_mem _ ha)).bind fun bs => of_pure _

end Steady

/-! ## Fields of objects -/

namespace Json

theorem knownFields_map {names : List String} {ms : List (String × Node)}
    (nodup : (ms.map Prod.fst).Nodup) (known : ∀ m ∈ ms, m.1 ∈ names) (found : Table String Node)
    (free : ∀ m ∈ ms, found.get? m.1 = none) :
    Node.knownFields names (ms.map fun m => (some m.1, m.2)) found =
      some (ms.foldl (fun t m => t.insert m.1 m.2) found) := by
  induction ms generalizing found with
  | nil => rfl
  | cons m ms ih =>
      rw [List.map_cons, List.nodup_cons] at nodup
      obtain ⟨fresh, nodup⟩ := nodup
      have here := known m (List.mem_cons_self ..)
      have absent : found.contains m.1 = false :=
        Table.contains_eq_false_iff.mpr (free m (List.mem_cons_self ..))
      have step : Node.knownFields names ((m :: ms).map fun m => (some m.1, m.2)) found =
          Node.knownFields names (ms.map fun m => (some m.1, m.2)) (found.insert m.1 m.2) := by
        simp [Node.knownFields, here, absent]
      rw [step, List.foldl_cons]
      refine ih nodup (fun n hn => known n (List.mem_cons_of_mem _ hn)) _ fun n hn => ?_
      have other : m.1 ≠ n.1 := fun e => fresh (e ▸ List.mem_map_of_mem hn)
      rw [Table.get?_insert_of_ne _ _ other, free n (List.mem_cons_of_mem _ hn)]

/-- **The fields of a written record** are its members, each parsed. -/
theorem fields?_parsed {names : List String} {members : List (String × Json)}
    (nodup : (members.map Prod.fst).Nodup) (known : ∀ m ∈ members, m.1 ∈ names) (depth : Nat) :
    ∃ t, Node.fields? names (depth + 1) (parsed (.object members)) = some (depth, t) ∧
      ∀ k, t.get? k = (Table.find k members).map parsed := by
  have nodup' : ((members.map fun m => (m.1, parsed m.2)).map Prod.fst).Nodup := by
    rw [List.map_map]
    exact nodup
  have known' : ∀ m ∈ members.map fun m => (m.1, parsed m.2), m.1 ∈ names := by
    intro m hm
    obtain ⟨n, hn, rfl⟩ := List.mem_map.mp hm
    exact known n hn
  refine ⟨(members.map fun m => (m.1, parsed m.2)).foldl (fun t m => t.insert m.1 m.2) Table.empty,
    ?_, fun k => ?_⟩
  · have collected := knownFields_map nodup' known' Table.empty fun _ _ => rfl
    rw [List.map_map] at collected
    rw [parsed, parsedMembers_eq_map, Node.fields?]
    exact congrArg (Option.map (depth, ·)) collected
  · rw [Table.get?_foldl_insert nodup', Table.get?_empty, Option.or_none, Table.find_map]

end Json

/-! ## Blocks and lines -/

namespace BlockDocument

theorem toJsonAll_eq_map (ds : List BlockDocument) : toJsonAll ds = ds.map toJson := by
  induction ds with
  | nil => rfl
  | cons d ds ih => rw [toJsonAll, ih, List.map_cons]

/-- The members of a written block document. -/
def members (d : BlockDocument) : List (String × Json) :=
  [("id", .string d.id.text), ("type", .string d.type), ("parameters", .object d.parameters.toList)] ++
    (if (toJsonAll d.children).isEmpty then [] else [("children", .array (toJsonAll d.children))])

theorem toJson_eq (d : BlockDocument) : d.toJson = .object d.members := by
  cases d
  rw [toJson]
  rfl

theorem fields?_toJson (d : BlockDocument) (depth : Nat) :
    ∃ t, Json.Node.fields? fieldNames (depth + 1) (Json.parsed d.toJson) = some (depth, t) ∧
      ∀ k, t.get? k = (Table.find k d.members).map Json.parsed := by
  rw [toJson_eq]
  refine Json.fields?_parsed ?_ ?_ depth
  · unfold members
    split <;> simp
  · unfold members
    split <;> simp [fieldNames]

theorem get?_children (d : BlockDocument) :
    (Table.find "children" d.members).map Json.parsed = none ∨
      (Table.find "children" d.members).map Json.parsed =
        some (.array (d.children.map fun c => Json.parsed c.toJson)) := by
  unfold members
  split
  · exact .inl (by simp [Table.find])
  · right
    simp [Table.find, Json.parsed, Json.parsedItems_eq_map, toJsonAll_eq_map]

/-- One block document names its block. -/
theorem steady_readOne (depth : Nat) (inner : Option (Json.Node → Reader BlockDocument))
    (d : BlockDocument)
    (children : ∀ read, inner = some read → ∀ c ∈ d.children, Steady (read (Json.parsed c.toJson))) :
    Steady (readOne depth inner (Json.parsed d.toJson)) := by
  obtain ⟨t, fields, get⟩ := d.fields?_toJson depth
  have id : t.get? "id" = some (.string (some d.id.text)) := by
    rw [get]
    simp [members, Table.find, Json.parsed]
  have named : Steady (readId t) := by
    rw [readId, id]
    exact .of_lift _
  have below : Steady (readChildren t inner) := by
    unfold readChildren
    rcases d.get?_children with absent | present
    · rw [get, absent]
      exact .of_pure []
    · rw [get, present]
      cases inner with
      | none => exact .of_failure
      | some read =>
          refine Steady.mapM fun n hn => ?_
          obtain ⟨c, hc, rfl⟩ := List.mem_map.mp hn
          exact children read rfl c hc
  rw [readOne, fields]
  have opened (f : Nat × Table String Json.Node → Reader BlockDocument) :
      (lift (some (depth, t)) >>= f) = f (depth, t) := rfl
  rw [opened]
  exact named.bind fun _ => (Steady.of_lift _).bind fun _ => (Steady.of_lift _).bind fun _ =>
    below.bind fun _ => .of_pure _

/-- A block document names all its blocks. -/
theorem steady_read (depth : Nat) (d : BlockDocument) :
    Steady (read depth (Json.parsed d.toJson)) := by
  induction depth using Nat.twoStepInduction generalizing d with
  | zero => exact .of_failure
  | one => exact steady_readOne 0 none d (by simp)
  -- a child lies two levels deeper: in the list, which is in the block
  | more depth ih _ =>
      refine steady_readOne (depth + 1) _ d fun read h c _ => ?_
      cases h
      exact ih c

end BlockDocument

namespace LineDocument

/-- A line document names all its blocks. -/
theorem steady_read (depth : Nat) (d : LineDocument) :
    Steady (read depth (Json.parsed d.toJson)) := by
  cases depth with
  | zero =>
      rw [read, toJson, Json.parsed, Json.Node.fields?]
      exact .of_failure
  | succ depth =>
      obtain ⟨t, fields, get⟩ : ∃ t, Json.Node.fields? fieldNames (depth + 1)
          (Json.parsed d.toJson) = some (depth, t) ∧ ∀ k, t.get? k = _ :=
        Json.fields?_parsed (by simp) (by simp [fieldNames]) depth
      have blocks : t.get? "blocks" =
          some (.array (d.blocks.map fun b => Json.parsed b.toJson)) := by
        rw [get]
        simp [Table.find, Json.parsed, Json.parsedItems_eq_map, BlockDocument.toJsonAll_eq_map]
      rw [read, fields]
      have opened (f : Nat × Table String Json.Node → Reader LineDocument) :
          (lift (some (depth, t)) >>= f) = f (depth, t) := rfl
      rw [opened]
      refine (Steady.of_lift _).bind fun _ => (Steady.of_lift _).bind fun _ =>
        (Steady.of_lift _).bind fun _ => (Steady.of_lift _).bind fun _ => ?_
      simp only [blocks]
      cases depth with
      | zero => exact Steady.of_failure.bind fun _ => .of_pure _
      | succ depth =>
          refine (Steady.mapM fun n hn => ?_).bind fun _ => .of_pure _
          obtain ⟨b, -, rfl⟩ := List.mem_map.mp hn
          exact BlockDocument.steady_read depth b

end LineDocument

/-! ## Scripts -/

namespace ScriptDocument

/-- The members of a written script document other than its variables. -/
def headMembers (d : ScriptDocument) : List (String × Json) :=
  [("ownerId", .string d.ownerId.text), ("ownerName", .string d.ownerName),
    ("enabled", .bool d.enabled), ("lastModified", .string d.lastModified.text)] ++
    (d.boundWorld.map fun w => ("boundWorld", Json.string w)).toList ++
    [("lines", .array (d.lines.map LineDocument.toJson))]

/-- The variables of a script in a document. -/
def variablesJson (g : Table String Scalar) : Json := .object (g.map Scalar.toJson).toList

theorem toJson_eq (d : ScriptDocument) :
    d.toJson = .object (d.headMembers ++ [("globalVariables", variablesJson d.globalVariables)]) := by
  simp [toJson, headMembers, variablesJson]

theorem find_headMembers_lines (d : ScriptDocument) :
    Table.find "lines" d.headMembers = some (.array (d.lines.map LineDocument.toJson)) := by
  cases world : d.boundWorld <;> simp [headMembers, Table.find, world]

theorem find_append_variables (d : ScriptDocument) (g : Table String Scalar) (k : String) :
    Table.find k (d.headMembers ++ [("globalVariables", variablesJson g)]) =
      if k = "globalVariables" then some (variablesJson g) else Table.find k d.headMembers := by
  rw [Table.find_append]
  split
  · next h =>
    have absent : Table.find "globalVariables" d.headMembers = none := by
      rw [Table.find_eq_none_iff]
      cases world : d.boundWorld <;> simp [headMembers, world]
    rw [h, absent]
    rfl
  · next h =>
    rw [Table.find, if_neg (Ne.symm h)]
    exact Option.or_none

/-- The head is read from the other fields. -/
theorem readHead_congr {t u : Table String Json.Node} (depth : Nat)
    (same : ∀ k, k ≠ "globalVariables" → t.get? k = u.get? k) :
    readHead depth t = readHead depth u := by
  have ownerId := same "ownerId" (by decide)
  have ownerName := same "ownerName" (by decide)
  have enabled := same "enabled" (by decide)
  have lastModified := same "lastModified" (by decide)
  have boundWorld := same "boundWorld" (by decide)
  have lines := same "lines" (by decide)
  simp only [readHead, BlockDocument.field?, BlockDocument.fieldOr, ownerId, ownerName, enabled,
    lastModified, boundWorld, lines]

theorem steady_readHead (depth : Nat) (d : ScriptDocument) {t : Table String Json.Node}
    (lines : t.get? "lines" = some (.array (d.lines.map fun l => Json.parsed l.toJson))) :
    Steady (readHead depth t) := by
  unfold readHead
  refine (Steady.of_lift _).bind fun _ => (Steady.of_lift _).bind fun _ =>
    (Steady.of_lift _).bind fun _ => (Steady.of_lift _).bind fun _ =>
    (Steady.of_lift _).bind fun _ => ?_
  rw [lines]
  cases depth with
  | zero => exact Steady.of_failure.bind fun _ => .of_pure _
  | succ depth =>
      refine (Steady.mapM fun n hn => ?_).bind fun _ => .of_pure _
      obtain ⟨l, -, rfl⟩ := List.mem_map.mp hn
      exact l.steady_read depth

theorem fields?_toJson (d : ScriptDocument) (depth : Nat) :
    ∃ t, Json.Node.fields? fieldNames (depth + 1) (Json.parsed d.toJson) = some (depth, t) ∧
      ∀ k, t.get? k = (if k = "globalVariables" then some (variablesJson d.globalVariables)
        else Table.find k d.headMembers).map Json.parsed := by
  have nodup : ((d.headMembers ++ [("globalVariables", variablesJson d.globalVariables)]).map
      Prod.fst).Nodup := by
    cases world : d.boundWorld <;> simp [headMembers, world]
  have known : ∀ m ∈ d.headMembers ++ [("globalVariables", variablesJson d.globalVariables)],
      m.1 ∈ fieldNames := by
    cases world : d.boundWorld <;> simp [headMembers, world, fieldNames]
  obtain ⟨t, fields, get⟩ := Json.fields?_parsed nodup known depth
  rw [toJson_eq]
  exact ⟨t, fields, fun k => by rw [get, find_append_variables]⟩

/-- Reading a document comes apart into the head, which is the same for all variables, and the
variables. -/
theorem read_toJson (d : ScriptDocument) (depth : Nat) :
    ∃ head : Option ScriptDocument, ∀ g : Table String Scalar,
      read (depth + 1) (Json.parsed { d with globalVariables := g }.toJson) =
        lift (head.bind fun h => (Scalar.readTable? depth (Json.parsed (variablesJson g))).map
          fun globalVariables => { h with globalVariables }) := by
  obtain ⟨t, -, get⟩ := d.fields?_toJson depth
  have lines : t.get? "lines" = some (.array (d.lines.map fun l => Json.parsed l.toJson)) := by
    rw [get, if_neg (by decide), find_headMembers_lines, Option.map_some, Json.parsed,
      Json.parsedItems_eq_map, List.map_map]
    rfl
  obtain ⟨head, steady⟩ := steady_readHead depth d lines
  refine ⟨head, fun g => ?_⟩
  obtain ⟨u, fields, get'⟩ := { d with globalVariables := g }.fields?_toJson depth
  -- the two documents differ in the field that the head does not read
  have same : readHead depth u = lift head := by
    rw [← steady]
    refine readHead_congr depth fun k hk => ?_
    rw [get, get', if_neg hk, if_neg hk]
    rfl
  have stored : BlockDocument.fieldOr u "globalVariables" {} (Scalar.readTable? depth) =
      Scalar.readTable? depth (Json.parsed (variablesJson g)) := by
    rw [BlockDocument.fieldOr, get', if_pos rfl]
    rfl
  have opened (f : Nat × Table String Json.Node → Reader ScriptDocument) :
      (lift (some (depth, u)) >>= f) = f (depth, u) := rfl
  rw [read, fields, opened]
  dsimp only
  rw [same, stored]
  funext supply
  cases head with
  | none => rfl
  | some h => cases Scalar.readTable? depth (Json.parsed (variablesJson g)) <;> rfl

/-- The variables of a document go into the script as they are. -/
theorem toScript_withVariables (d : ScriptDocument) (g : Table String Scalar) :
    { d with globalVariables := g }.toScript = d.toScript.map fun s => { s with globals := g } := by
  simp only [toScript]
  cases LineDocument.decodeAll [] (LineDocument.inOrder d.lines) with
  | error e => rfl
  | ok lines => rfl

end ScriptDocument

namespace Script

/-- A script is read from the nodes of its document. -/
theorem ofText_toText (s : Script) (supply : Uuid.Supply) :
    ofText s.toText supply = ofNode (Json.parsed (ScriptDocument.ofScript s).toJson) supply := by
  rw [ofText, toText, Json.ofText?_pretty]

/-- A script that is read back from its text, whatever the result is. -/
def ReadsBack (s : Script) : Prop := ∃ supply r, ofText s.toText supply = .ok r

/-- The script without its globals. -/
def head (s : Script) : Script := { s with globals := {} }

/-- The depth that is left for the values of globals in a document. -/
def globalsDepth : Nat := 125

/-- **A script is read back in two halves.** What its text gives is a head that does not depend on
the globals, together with the globals as they are read, and the supply of identities is not
touched. -/
theorem ofText_toText_iff (s : Script) :
    ∃ base : Option Script, ∀ (g : Table String Scalar) (supply : Uuid.Supply)
      (r : Script × Uuid.Supply), ofText { s with globals := g }.toText supply = .ok r ↔
        ∃ b g', base = some b ∧
          Scalar.readTable? (globalsDepth + 1) (Json.parsed (ScriptDocument.variablesJson g)) =
            some g' ∧ r = ({ b with globals := g' }, supply) := by
  obtain ⟨found, reading⟩ := (ScriptDocument.ofScript s).read_toJson (globalsDepth + 1)
  refine ⟨found.bind fun d => d.toScript.toOption, fun g supply r => ?_⟩
  have text : ofText { s with globals := g }.toText supply =
      ofNode (Json.parsed { ScriptDocument.ofScript s with globalVariables := g }.toJson) supply :=
    ofText_toText _ supply
  have depth : Json.Node.maxDepth = globalsDepth + 1 + 1 := rfl
  rw [text, ofNode, depth, reading g]
  cases found with
  | none => simp [lift, StateT.run]
  | some d =>
      cases Scalar.readTable? (globalsDepth + 1) (Json.parsed (ScriptDocument.variablesJson g)) with
      | none => simp [lift, StateT.run]
      | some g' =>
          have script := d.toScript_withVariables g'
          cases whole : d.toScript with
          | error e =>
              rw [whole] at script
              simp [lift, StateT.run, script, Except.map, whole, Except.toOption]
          | ok b =>
              rw [whole] at script
              simp [lift, StateT.run, script, Except.map, whole, Except.toOption, eq_comm]

theorem readTable?_empty :
    Scalar.readTable? (globalsDepth + 1) (Json.parsed (ScriptDocument.variablesJson {})) =
      some {} := rfl

/-- What is read back at all has a head that is read back. -/
theorem ReadsBack.head {s : Script} (h : s.ReadsBack) : s.head.ReadsBack := by
  obtain ⟨base, reading⟩ := s.ofText_toText_iff
  obtain ⟨supply, r, back⟩ := h
  obtain ⟨b, -, hb, -, -⟩ := (reading s.globals supply r).mp back
  exact ⟨supply, _, (reading {} supply _).mpr ⟨b, {}, hb, readTable?_empty, rfl⟩⟩

/-- **A script is read back with its own globals** exactly if its head is read back and each of its
globals is storable. -/
theorem reads_globals_iff (s : Script) (supply : Uuid.Supply) :
    (∃ r supply', ofText s.toText supply = .ok (r, supply') ∧ r.globals = s.globals) ↔
      s.head.ReadsBack ∧
        ∀ name v, s.globals.get? name = some v → v.IsStorable globalsDepth := by
  obtain ⟨base, reading⟩ := s.ofText_toText_iff
  rw [← Scalar.readTable?_parsed_iff globalsDepth]
  constructor
  · rintro ⟨r, supply', back, same⟩
    refine ⟨ReadsBack.head ⟨supply, _, back⟩, ?_⟩
    obtain ⟨b, g', -, read, result⟩ := (reading s.globals supply _).mp back
    obtain ⟨rfl, -⟩ := Prod.mk.inj result
    rw [show g' = s.globals from same] at read
    exact read
  · rintro ⟨⟨supply₀, r, back⟩, read⟩
    obtain ⟨b, -, hb, -, -⟩ := (reading {} supply₀ r).mp back
    exact ⟨{ b with globals := s.globals }, supply,
      (reading s.globals supply _).mpr ⟨b, s.globals, hb, read, rfl⟩, rfl⟩

end Script

end Blockwork
