import Blockwork.Json.Token
import Blockwork.Table

/-!
# Identities

Blocks and actors are identified by 128-bit numbers.  They are written as thirty-two hexadecimal
digits in groups of 8, 4, 4, 4 and 12, and read in four forms: grouped, plain, grouped in braces and
grouped after `urn:uuid:`.  Letters of either case are read, in the digits and in front of them, and
lower case is written.

New identities come from a `Supply`, which hands out numbers in sequence under a fixed leading part.
-/

namespace Blockwork

/-- A 128-bit identity. -/
structure Uuid where
  /-- The number. -/
  value : BitVec 128
deriving DecidableEq, Inhabited

/-- Identity of a block. -/
abbrev BlockId := Uuid

/-- Identity of an actor, who owns at most one script. -/
abbrev ActorId := Uuid

namespace Uuid

instance : Key Uuid where
  lt a b := a.value < b.value
  decLt a b := inferInstanceAs (Decidable (a.value < b.value))
  irrefl a := BitVec.lt_irrefl a.value
  trans _ _ _ := BitVec.lt_trans
  connected := fun ⟨a⟩ ⟨b⟩ h g => by
    have : a = b := BitVec.le_antisymm (BitVec.not_lt.1 g) (BitVec.not_lt.1 h)
    rw [this]

/-- The identity with all bits zero. -/
def nil : Uuid := ⟨0⟩

/-- The sizes of the groups of digits. -/
def groups : List Nat := [8, 4, 4, 4, 12]

/-- The last `n` hexadecimal digits of a number. -/
def hexDigits : Nat → Nat → List Char
  | 0, _ => []
  | n + 1, v => hexDigits n (v / 16) ++ [Json.hexDigit (v % 16)]

/-- Cuts digits into groups with hyphens between them. -/
def grouped : List Nat → List Char → List Char
  | [], ds => ds
  | [n], ds => ds.take n
  | n :: rest, ds => ds.take n ++ '-' :: grouped rest (ds.drop n)

/-- The written form: grouped, in lower case. -/
def text (u : Uuid) : String := String.ofList (grouped groups (hexDigits 32 u.value.toNat))

/-- The value of hexadecimal digits. -/
def hexNumber? (ds : List Char) : Option Nat :=
  ds.foldlM (fun n c => (Json.hexValue? c).map fun d => 16 * n + d) 0

/-- The identity of thirty-two digits. -/
def ofDigits? (ds : List Char) : Option Uuid :=
  if ds.length = 32 then (hexNumber? ds).map fun n => ⟨BitVec.ofNat 128 n⟩ else none

/-- The digits of a grouped form. -/
def ungrouped? : List Nat → List Char → Option (List Char)
  | [], [] => some []
  | [], _ :: _ => none
  | [n], cs => if cs.length = n then some cs else none
  | n :: rest, cs =>
    match cs.drop n with
    | '-' :: more => (ungrouped? rest more).map (cs.take n ++ ·)
    | _ => none

/-- The identity of a grouped form. -/
def ofGrouped? (cs : List Char) : Option Uuid := (ungrouped? groups cs).bind ofDigits?

/-- The inside of the braces of a form in braces. -/
def braced? (cs : List Char) : Option (List Char) := Text.unwrapChars '\x7b' '\x7d' cs

/-- What stands in front of the digits of a name among the uniform resource names. -/
def urnStart : List Char := "urn:uuid:".toList

/-- The rest of a uniform resource name, whose start may be in letters of either case. -/
def afterUrn? (cs : List Char) : Option (List Char) :=
  if (cs.take urnStart.length).map Char.toLower = urnStart then some (cs.drop urnStart.length)
  else none

/-- The identity that a text spells in one of the four forms. -/
def parse? (s : String) : Option Uuid :=
  let cs := s.toList
  match cs.length with
  | 32 => ofDigits? cs
  | 36 => ofGrouped? cs
  | 38 => (braced? cs).bind ofGrouped?
  | 45 => (afterUrn? cs).bind ofGrouped?
  | _ => none

/-- A source of new identities. -/
structure Supply where
  /-- How many have been handed out. -/
  used : Nat
deriving Inhabited

namespace Supply

/-- The leading part of every identity that is handed out. -/
def lead : Nat := 0xb10c8a5e4d7c4e3f9a6b

/-- The `n`-th identity. -/
def nth (n : Nat) : Uuid := ⟨BitVec.ofNat 128 (lead * Nat.pow 2 48 + n)⟩

/-- The next identity, and the source that has handed it out. -/
def take (s : Supply) : Uuid × Supply := (nth s.used, ⟨s.used + 1⟩)

end Supply

end Uuid

end Blockwork
