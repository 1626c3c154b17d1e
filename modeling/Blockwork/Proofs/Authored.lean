import Blockwork.Proofs.Decimal.Reading

/-!
# Authored text is stable

A value that was read from authored text is shown in a form of its own, and reading that form gives the value
again: what is left out is filled in by the same defaults, numbers are written so that they are read back, and
names come out trimmed, in capitals where that matters, and without commas, so that they are read back too
(`Item.parse_text`, `Sound.parse_text`, `Particle.parse_text`, `Potion.parse_text`).

Places are the exception.  The world is left out when there is none and the angles are left out when they are
zero, each without regard to the other, so a place without a world that is turned is shown in five parts
(`Place.hasFiveParts`).  No place is read from five parts, and what is shown is read as the origin
(`Place.parse_text_of_hasFiveParts`).  These are the only values that are not stable (`stable_iff`).
-/

namespace Blockwork

open Text (IsPart IsTrimmed)

namespace Text

/-! ## Parts in order -/

theorem commaParts_three {a b c : String} (ha : IsPart a) (hb : IsPart b) (hc : IsPart c) :
    commaParts (a ++ "," ++ b ++ "," ++ c) = [a, b, c] := by
  have line : join "," [a, b, c] = a ++ "," ++ b ++ "," ++ c := by
    simp [join, String.intercalate_cons_cons, String.append_assoc]
  rw [← line]
  apply commaParts_join (by simp)
  simpa using ⟨ha, hb, hc⟩

theorem isPart_head (s : String) : IsPart ((commaParts s).head?.getD "") := by
  cases first : (commaParts s).head? with
  | none => exact IsPart.empty
  | some part => exact isPart_of_mem_commaParts (List.mem_of_mem_head? first)

/-- A letter is neither a comma nor a blank. -/
theorem plain_of_isAlpha {c : Char} (letter : c.isAlpha = true) : c ≠ ',' ∧ isBlank c = false := by
  have range : 65 ≤ c.toNat ∧ c.toNat ≤ 90 ∨ 97 ≤ c.toNat ∧ c.toNat ≤ 122 := by
    simpa [Char.isAlpha, Char.isUpper, Char.isLower, UInt32.le_iff_toNat_le] using letter
  constructor
  · rintro rfl
    cases letter
  · have other : c ≠ ' ' := by
      rintro rfl
      cases letter
    have below : c.toNat < 0x80 := by omega
    rw [isBlank, if_pos below]
    simp [other]
    omega

/-- Only letters are changed by writing a text in capitals. -/
theorem toUpper_eq_or_isAlpha (c : Char) : c.toUpper = c ∨ c.isAlpha = true ∧ c.toUpper.isAlpha = true := by
  by_cases lower : c.isLower = true
  · have letter : c.isAlpha = true := by simp [Char.isAlpha, lower]
    exact .inr ⟨letter, by rw [Char.isAlpha_toUpper_eq_isAlpha, letter]⟩
  · exact .inl (Char.toUpper_eq_of_not_isLower lower)

theorem isBlank_toUpper (c : Char) : isBlank c.toUpper = isBlank c := by
  rcases toUpper_eq_or_isAlpha c with same | ⟨letter, letter'⟩
  · rw [same]
  · rw [(plain_of_isAlpha letter).2, (plain_of_isAlpha letter').2]

theorem IsPart.upperAscii {s : String} (h : IsPart s) : IsPart (upperAscii s) := by
  have chars : (Text.upperAscii s).toList = s.toList.map Char.toUpper := by simp [Text.upperAscii]
  refine ⟨?_, ?_, ?_⟩
  · rw [chars, List.mem_map]
    rintro ⟨c, mem, comma⟩
    rcases toUpper_eq_or_isAlpha c with same | ⟨-, letter⟩
    · exact h.comma (same.symm.trans comma ▸ mem)
    · exact (plain_of_isAlpha letter).1 comma
  · intro c first
    rw [chars, List.head?_map] at first
    obtain ⟨d, start, rfl⟩ := Option.map_eq_some_iff.mp first
    rw [isBlank_toUpper, h.trimmed.1 d start]
  · intro c last
    rw [chars, List.getLast?_map] at last
    obtain ⟨d, finish, rfl⟩ := Option.map_eq_some_iff.mp last
    rw [isBlank_toUpper, h.trimmed.2 d finish]

theorem upperAscii_upperAscii (s : String) : upperAscii (upperAscii s) = upperAscii s := by
  have twice : Char.toUpper ∘ Char.toUpper = Char.toUpper := funext Char.toUpper_toUpper_eq_toUpper
  simp [upperAscii, twice]

end Text

/-! ## Compound values -/

theorem word32?_natural (n : UInt32) : word32? (Text.natural n.toNat) = some n := by
  have most : n.toNat ≤ Nat.pow 2 32 - 1 := Nat.le_pred_of_lt n.toNat_lt
  simp [word32?, Text.unsigned?_natural most]

theorem word8?_natural (n : UInt8) : word8? (Text.natural n.toNat) = some n := by
  have most : n.toNat ≤ Nat.pow 2 8 - 1 := Nat.le_pred_of_lt n.toNat_lt
  simp [word8?, Text.unsigned?_natural most]

namespace Sound

theorem parse_text {s : Sound} (named : IsPart s.sound) : parse s.text = s := by
  have parts := Text.commaParts_three named (Decimal.isPart_plainSingle s.volume)
    (Decimal.isPart_plainSingle s.pitch)
  simp [parse, text, parts, Decimal.single?_plain]

end Sound

namespace Particle

theorem parse_text {p : Particle} (named : IsPart p.particle) : parse p.text = p := by
  have parts := Text.commaParts_three named (Text.isPart_natural p.count.toNat) (Decimal.isPart_plain p.spread)
  simp [parse, text, parts, word32?_natural, Decimal.float?_plain]

end Particle

namespace Potion

theorem parse_text {p : Potion} (named : IsPart p.effect) (capitals : Text.upperAscii p.effect = p.effect) :
    parse p.text = p := by
  have parts := Text.commaParts_three named (Text.isPart_natural p.durationTicks.toNat)
    (Text.isPart_natural p.amplifier.toNat)
  simp [parse, text, parts, capitals, word32?_natural, word8?_natural]

end Potion

namespace Item

/-- What every item that was read is like. -/
structure IsRead (i : Item) : Prop where
  /-- The material has no comma and is trimmed. -/
  part : IsPart i.material
  /-- It is in capitals. -/
  capitals : Text.upperAscii i.material = i.material
  /-- There is one. -/
  nonempty : i.material ≠ ""
  /-- A name is trimmed and not empty. -/
  name : ∀ n ∈ i.displayName, n ≠ "" ∧ IsTrimmed n.toList

theorem isPart_air : IsPart "AIR" := by
  apply IsPart.of_forall
  have letters : "AIR".toList.all Char.isAlpha = true := rfl
  exact fun c mem => Text.plain_of_isAlpha (List.all_eq_true.mp letters c mem)

theorem isRead_parse (raw : String) : (parse raw).IsRead := by
  have chosen : ∃ m, IsPart m ∧ m ≠ "" ∧ (parse raw).material = Text.upperAscii m := by
    unfold parse
    dsimp only
    split
    · exact ⟨"AIR", isPart_air, by decide, rfl⟩
    · next some =>
      refine ⟨_, ?_, by simpa using some, rfl⟩
      rw [List.head?_map]
      cases first : (Text.splitAtMost ',' 3 raw.toList).head? with
      | none => exact IsPart.empty
      | some piece => exact Text.isPart_trim (Text.notMem_head_splitAtMost first)
  obtain ⟨m, part, nonempty, same⟩ := chosen
  refine ⟨same ▸ part.upperAscii, by rw [same, Text.upperAscii_upperAscii], ?_, ?_⟩
  · rw [same, ne_eq, ← String.toList_eq_nil_iff] at *
    simpa [Text.upperAscii] using nonempty
  · intro n found
    obtain ⟨third, some⟩ := Option.filter_eq_some_iff.mp found
    refine ⟨by simpa using some, ?_⟩
    rw [List.getElem?_map] at third
    obtain ⟨piece, -, rfl⟩ := Option.map_eq_some_iff.mp third
    rw [Text.trim, String.toList_ofList]
    exact Text.isTrimmed_trimChars _

/-- An item is shown in two or three parts, of which the last may have commas in it. -/
theorem splitAtMost_text {i : Item} (h : i.IsRead) :
    (Text.splitAtMost ',' 3 i.text.toList).map (fun cs => Text.trim (String.ofList cs)) =
      [i.material, Text.natural i.amount.toNat] ++ i.displayName.toList := by
  have number := Text.isPart_natural i.amount.toNat
  have kept := Text.trim_eq_self_iff.mpr h.part.trimmed
  have kept' := Text.trim_eq_self_iff.mpr number.trimmed
  cases shown : i.displayName with
  | none =>
      have line : i.text.toList = i.material.toList ++ ',' :: (Text.natural i.amount.toNat).toList := by
        simp [text, shown]
      rw [line, Text.splitAtMost_append h.part.comma, Text.splitAtMost_of_notMem number.comma]
      simp [kept, kept']
  | some name =>
      have line : i.text.toList =
          i.material.toList ++ ',' :: ((Text.natural i.amount.toNat).toList ++ ',' :: name.toList) := by
        simp [text, shown]
      have last := Text.trim_eq_self_iff.mpr (h.name name shown).2
      rw [line, Text.splitAtMost_append h.part.comma, Text.splitAtMost_append number.comma, Text.splitAtMost]
      simp [kept, kept', last]

theorem parse_text {i : Item} (h : i.IsRead) : parse i.text = i := by
  have name : i.displayName.filter (fun n => !n.isEmpty) = i.displayName := by
    cases shown : i.displayName with
    | none => rfl
    | some n => simp [(h.name n shown).1]
  have third : i.displayName.toList[0]? = i.displayName := by
    cases i.displayName <;> rfl
  simp [parse, splitAtMost_text h, h.nonempty, h.capitals, word32?_natural, third, name]

end Item

namespace Place

/-- A place without the signs of its zeros. -/
def unsigned (p : Place) : Place :=
  { p with
    x := Binary.unsigned p.x
    y := Binary.unsigned p.y
    z := Binary.unsigned p.z
    yaw := Binary.unsignedSingle p.yaw
    pitch := Binary.unsignedSingle p.pitch }

/-- Whether one of the angles is not zero. -/
def isTurned (p : Place) : Bool := p.yaw != 0 || p.pitch != 0

/-- Whether a place is shown in five parts: it has no world, and it is turned. -/
def hasFiveParts (p : Place) : Bool := p.world.isNone && p.isTurned

/-- What every place that was read is like: a world that it has can stand between commas. -/
def IsRead (p : Place) : Prop := ∀ w ∈ p.world, w ≠ "" ∧ IsPart w

theorem ofParts?_eq_some {world : Option String} {x y z yaw pitch : String} {p : Place}
    (h : ofParts? world x y z yaw pitch = some p) : p.world = world.filter fun w => !w.isEmpty := by
  simp only [ofParts?, Option.bind_eq_bind, Option.bind_eq_some_iff, Option.pure_def, Option.some.injEq] at h
  obtain ⟨_, -, _, -, _, -, _, -, _, -, rfl⟩ := h
  rfl

theorem isRead_parse (raw : String) : (parse raw).IsRead := by
  have named {world : Option String} {x y z yaw pitch : String} (part : ∀ w ∈ world, IsPart w) :
      ((ofParts? world x y z yaw pitch).getD {}).IsRead := by
    cases found : ofParts? world x y z yaw pitch with
    | none => rintro _ ⟨⟩
    | some p =>
        intro w mem
        rw [Option.getD_some, ofParts?_eq_some found] at mem
        obtain ⟨mem, some⟩ := Option.filter_eq_some_iff.mp mem
        exact ⟨by simpa using some, part w mem⟩
  unfold parse
  dsimp only
  split
  · exact named (by simp)
  · next parts =>
    apply named
    rintro w ⟨⟩
    exact Text.isPart_of_mem_commaParts (by rw [parts]; exact List.mem_cons_self ..)
  · next parts =>
    apply named
    rintro w ⟨⟩
    exact Text.isPart_of_mem_commaParts (by rw [parts]; exact List.mem_cons_self ..)
  · rintro _ ⟨⟩

/-- What stands between the commas of a place that is shown. -/
def parts (p : Place) : List String :=
  p.world.toList ++ [Decimal.plain p.x, Decimal.plain p.y, Decimal.plain p.z] ++
    if p.isTurned then [Decimal.plainSingle p.yaw, Decimal.plainSingle p.pitch] else []

theorem text_eq_join (p : Place) : p.text = Text.join "," p.parts := by
  obtain ⟨world, x, y, z, yaw, pitch⟩ := p
  cases world <;> by_cases turned : (yaw != 0 || pitch != 0) = true <;>
    simp [text, parts, isTurned, turned, Text.join, String.intercalate_cons_cons, String.append_assoc]

theorem commaParts_text {p : Place} (h : p.IsRead) : Text.commaParts p.text = p.parts := by
  rw [text_eq_join]
  apply Text.commaParts_join (by simp [parts])
  intro part mem
  simp only [parts, List.mem_append, Option.mem_toList, List.mem_cons, List.not_mem_nil, or_false] at mem
  rcases mem with (world | rfl | rfl | rfl) | angle
  · exact (h part world).2
  · exact Decimal.isPart_plain p.x
  · exact Decimal.isPart_plain p.y
  · exact Decimal.isPart_plain p.z
  · split at angle
    · rcases (by simpa using angle : part = Decimal.plainSingle p.yaw ∨ part = Decimal.plainSingle p.pitch)
        with rfl | rfl
      · exact Decimal.isPart_plainSingle p.yaw
      · exact Decimal.isPart_plainSingle p.pitch
    · cases angle

/-- Five parts are no place. -/
theorem parse_text_of_hasFiveParts {p : Place} (h : p.hasFiveParts = true) : parse p.text = {} := by
  rw [hasFiveParts, Bool.and_eq_true, Option.isNone_iff_eq_none] at h
  have read : p.IsRead := by
    intro w mem
    rw [h.1] at mem
    cases mem
  rw [parse, commaParts_text read, parts, h.1, h.2]
  rfl

/-- Three, four and six parts are the place that they were written for. -/
theorem parse_text {p : Place} (h : p.IsRead) (few : p.hasFiveParts = false) :
    (parse p.text).unsigned = p.unsigned := by
  have zero : Numeral.single? "0" = some 0 := rfl
  have straight (still : p.isTurned = false) : Binary.unsignedSingle p.yaw = Binary.unsignedSingle 0 ∧
      Binary.unsignedSingle p.pitch = Binary.unsignedSingle 0 := by
    rw [isTurned, Bool.or_eq_false_iff] at still
    exact ⟨Binary.unsignedSingle_eq_of_beq (by simpa [bne] using still.1),
      Binary.unsignedSingle_eq_of_beq (by simpa [bne] using still.2)⟩
  rw [parse, commaParts_text h, parts]
  cases named : p.world with
  | none =>
      have still : p.isTurned = false := by simpa [hasFiveParts, named] using few
      simp [still, ofParts?, Decimal.float?_plain, zero, unsigned, named, straight still]
  | some w =>
      have kept : (some w).filter (fun w => !w.isEmpty) = some w := by simp [(h w named).1]
      cases turned : p.isTurned with
      | false => simp [ofParts?, Decimal.float?_plain, zero, unsigned, named, straight turned, kept]
      | true =>
          simp [ofParts?, Decimal.float?_plain, Decimal.single?_plain, unsigned, named, kept]

end Place

/-! ## Values -/

/-- The name in braces is the name, whatever it is. -/
theorem stripMarkers_braced (name : String) : stripMarkers ("\x7b" ++ name ++ "\x7d") = name := by
  have line : ("\x7b" ++ name ++ "\x7d").toList = '\x7b' :: name.toList ++ ['\x7d'] := by simp
  have trimmed : IsTrimmed ('\x7b' :: name.toList ++ ['\x7d']) := by
    constructor
    · rintro _ ⟨⟩
      rfl
    · rw [List.getLast?_concat]
      rintro _ ⟨⟩
      rfl
  have inside : Text.unwrapChars '\x7b' '\x7d' ('\x7b' :: name.toList ++ ['\x7d']) = some name.toList :=
    Text.unwrapChars_eq_some_iff.mpr rfl
  rw [stripMarkers, line, Text.isTrimmed_iff.mp trimmed, inside]
  simp

namespace Value

/-- A value without the signs of its zeros. -/
def unsigned : Value → Value
  | .location p => .location p.unsigned
  | .sound s => .sound s.unsigned
  | .particle p => .particle p.unsigned
  | v => v

/-- Whether a value is a place that is shown in five parts. -/
def hasFiveParts : Value → Bool
  | .location p => p.hasFiveParts
  | _ => false

/-- A value that is not shown in five parts is read as it was. -/
theorem unsigned_parse_raw (k : ValueKind) (s : String) (few : (parse k s).hasFiveParts = false) :
    (parse k (parse k s).raw).unsigned = (parse k s).unsigned := by
  cases k with
  | text => rfl
  | number =>
      show Value.number (.ofRaw (Text.trim (Text.trim s))) = _
      rw [Text.trim_trim]
      rfl
  | variable_ =>
      show Value.variable_ (stripMarkers ("\x7b" ++ stripMarkers s ++ "\x7d")) = _
      rw [stripMarkers_braced]
      rfl
  | location =>
      show Value.location (Place.parse (Place.parse s).text).unsigned = .location (Place.parse s).unsigned
      rw [Place.parse_text (Place.isRead_parse s) few]
  | item =>
      show Value.item (Item.parse (Item.parse s).text) = .item (Item.parse s)
      rw [Item.parse_text (Item.isRead_parse s)]
  | sound =>
      show Value.sound (Sound.parse (Sound.parse s).text).unsigned = .sound (Sound.parse s).unsigned
      rw [Sound.parse_text (Text.isPart_head s)]
  | particle =>
      show Value.particle (Particle.parse (Particle.parse s).text).unsigned = .particle (Particle.parse s).unsigned
      rw [Particle.parse_text (Text.isPart_head s)]
  | potionEffect =>
      show Value.potionEffect (Potion.parse (Potion.parse s).text) = .potionEffect (Potion.parse s)
      have effect : (Potion.parse s).effect = Text.upperAscii ((Text.commaParts s).head?.getD "") := rfl
      have named : IsPart (Potion.parse s).effect := by
        rw [effect]
        exact (Text.isPart_head s).upperAscii
      rw [Potion.parse_text named (by rw [effect, Text.upperAscii_upperAscii])]

/-- A place that is shown in five parts is read as the origin. -/
theorem parse_raw_eq_origin {k : ValueKind} {s : String} (five : (parse k s).hasFiveParts = true) :
    parse k (parse k s).raw = .location {} := by
  cases k with
  | location => exact congrArg Value.location (Place.parse_text_of_hasFiveParts five)
  | _ => cases five

/-- The origin is not turned, so it is no place in five parts. -/
theorem unsigned_ne_origin {v : Value} (five : v.hasFiveParts = true) :
    v.unsigned ≠ (location {}).unsigned := by
  cases v with
  | location p =>
      intro same
      have places : p.unsigned = ({} : Place).unsigned := Value.location.inj same
      have still : p.isTurned = false := by
        have yaw := Binary.unsignedSingle_eq_zero_iff.mp (congrArg Place.yaw places)
        have pitch := Binary.unsignedSingle_eq_zero_iff.mp (congrArg Place.pitch places)
        rw [Place.isTurned, bne, bne, yaw, pitch]
        rfl
      have turned : p.isTurned = true := (Bool.and_eq_true_iff.mp five).2
      rw [still] at turned
      cases turned
  | _ => cases five

/-- **What was read from authored text is shown so that it is read back**, for every kind and every text, but
for the places that are shown in five parts: they are read as the origin. -/
theorem stable_iff (k : ValueKind) (s : String) :
    ((parse k (parse k s).raw).unsigned = (parse k s).unsigned ↔ (parse k s).hasFiveParts = false) ∧
    ((parse k s).hasFiveParts = true → parse k (parse k s).raw = .location {}) := by
  refine ⟨⟨?_, unsigned_parse_raw k s⟩, parse_raw_eq_origin⟩
  intro same
  rw [← Bool.not_eq_true]
  intro five
  rw [parse_raw_eq_origin five] at same
  exact unsigned_ne_origin five same.symm

/-- An empty world and two angles are such a place. -/
theorem not_stable_turned : (parse .location ",1,2,3,90,10").hasFiveParts = true ∧
    parse .location (parse .location ",1,2,3,90,10").raw = .location {} ∧
    (parse .location (parse .location ",1,2,3,90,10").raw).unsigned ≠
      (parse .location ",1,2,3,90,10").unsigned := by
  have five : (parse .location ",1,2,3,90,10").hasFiveParts = true := by decide +kernel
  obtain ⟨stable, origin⟩ := stable_iff .location ",1,2,3,90,10"
  refine ⟨five, origin five, ?_⟩
  rw [ne_eq, stable, five]
  decide

end Value

end Blockwork
