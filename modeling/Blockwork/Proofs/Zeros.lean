import Blockwork.Datum
import Blockwork.Proofs.Binary

/-!
# Values up to the sign of zeros

Equality of values is coarser than being the same value in one respect: a zero and a negative zero are
equal.  `Datum.unsigned` takes the signs off the zeros of a value, wherever they are in it, and values
that are equal have the same unsigned form (`Datum.unsigned_eq_of_agrees`).
-/

namespace Blockwork

namespace Binary

/-- A double without the sign of a zero. -/
def unsigned (x : Float) : Float := if x == 0 then 0 else x

/-- A single without the sign of a zero. -/
def unsignedSingle (x : Float32) : Float32 := if x == 0 then 0 else x

theorem unsigned_eq_of_beq {x y : Float} (same : (x == y) = true) : unsigned x = unsigned y := by
  obtain ⟨-, -, rfl | ⟨rfl, rfl⟩ | ⟨rfl, rfl⟩⟩ := Float.beq_iff_ne_nan_and_eq.mp same <;> rfl

theorem unsignedSingle_eq_of_beq {x y : Float32} (same : (x == y) = true) :
    unsignedSingle x = unsignedSingle y := by
  obtain ⟨-, -, rfl | ⟨rfl, rfl⟩ | ⟨rfl, rfl⟩⟩ := Float32.beq_iff_ne_nan_and_eq.mp same <;> rfl

theorem unsignedSingle_eq_zero_iff {y : Float32} : unsignedSingle y = unsignedSingle 0 ↔ (y == 0) = true := by
  refine ⟨?_, unsignedSingle_eq_of_beq⟩
  intro same
  by_contra other
  have equal : y = 0 := by
    rw [unsignedSingle, if_neg other] at same
    exact same
  rw [equal] at other
  exact other rfl

theorem unsigned_unsigned (x : Float) : unsigned (unsigned x) = unsigned x := by
  by_cases zero : (x == 0) = true
  · rw [unsigned_eq_of_beq zero]
    rfl
  · rw [unsigned, unsigned, if_neg zero, if_neg zero]

end Binary

open Binary

/-- A location without the signs of its zeros. -/
def Location.unsigned (l : Location) : Location :=
  { l with
    x := Binary.unsigned l.x
    y := Binary.unsigned l.y
    z := Binary.unsigned l.z
    yaw := unsignedSingle l.yaw
    pitch := unsignedSingle l.pitch }

/-- A sound without the signs of its zeros. -/
def Sound.unsigned (s : Sound) : Sound :=
  { s with volume := unsignedSingle s.volume, pitch := unsignedSingle s.pitch }

/-- Particles without the signs of their zeros. -/
def Particle.unsigned (p : Particle) : Particle := { p with spread := Binary.unsigned p.spread }

theorem Location.unsigned_eq_of_beq {l l' : Location} (same : (l == l') = true) :
    l.unsigned = l'.unsigned := by
  obtain ⟨world, x, y, z, yaw, pitch⟩ := l
  obtain ⟨world', x', y', z', yaw', pitch'⟩ := l'
  have parts : (world == world' && (x == x' && (y == y' && (z == z' &&
      (yaw == yaw' && pitch == pitch'))))) = true := same
  simp only [Bool.and_eq_true, beq_iff_eq] at parts
  obtain ⟨rfl, hx, hy, hz, hyaw, hpitch⟩ := parts
  simp only [unsigned, Binary.unsigned_eq_of_beq hx, Binary.unsigned_eq_of_beq hy,
    Binary.unsigned_eq_of_beq hz, unsignedSingle_eq_of_beq hyaw, unsignedSingle_eq_of_beq hpitch]

theorem Sound.unsigned_eq_of_beq {s s' : Sound} (same : (s == s') = true) :
    s.unsigned = s'.unsigned := by
  obtain ⟨sound, volume, pitch⟩ := s
  obtain ⟨sound', volume', pitch'⟩ := s'
  have parts : (sound == sound' && (volume == volume' && pitch == pitch')) = true := same
  simp only [Bool.and_eq_true, beq_iff_eq] at parts
  obtain ⟨rfl, hvolume, hpitch⟩ := parts
  simp only [unsigned, unsignedSingle_eq_of_beq hvolume, unsignedSingle_eq_of_beq hpitch]

theorem Particle.unsigned_eq_of_beq {p p' : Particle} (same : (p == p') = true) :
    p.unsigned = p'.unsigned := by
  obtain ⟨particle, count, spread⟩ := p
  obtain ⟨particle', count', spread'⟩ := p'
  have parts : (particle == particle' && (count == count' && spread == spread')) = true := same
  simp only [Bool.and_eq_true, beq_iff_eq] at parts
  obtain ⟨rfl, rfl, hspread⟩ := parts
  simp only [unsigned, Binary.unsigned_eq_of_beq hspread]

theorem Item.eq_of_beq {i i' : Item} (same : (i == i') = true) : i = i' := by
  obtain ⟨material, amount, displayName⟩ := i
  obtain ⟨material', amount', displayName'⟩ := i'
  have parts : (material == material' && (amount == amount' && displayName == displayName')) = true :=
    same
  simp only [Bool.and_eq_true, beq_iff_eq] at parts
  obtain ⟨rfl, rfl, rfl⟩ := parts
  rfl

theorem Potion.eq_of_beq {p p' : Potion} (same : (p == p') = true) : p = p' := by
  obtain ⟨effect, durationTicks, amplifier⟩ := p
  obtain ⟨effect', durationTicks', amplifier'⟩ := p'
  have parts : (effect == effect' && (durationTicks == durationTicks' && amplifier == amplifier')) =
    true := same
  simp only [Bool.and_eq_true, beq_iff_eq] at parts
  obtain ⟨rfl, rfl, rfl⟩ := parts
  rfl

namespace Datum

mutual

/-- A value without the signs of its zeros. -/
def unsigned : Datum → Datum
  | .number x => .number (Binary.unsigned x)
  | .location l => .location l.unsigned
  | .sound s => .sound s.unsigned
  | .particle p => .particle p.unsigned
  | .list items => .list (unsignedAll items)
  | d => d

/-- Values without the signs of their zeros. -/
def unsignedAll : List Datum → List Datum
  | [] => []
  | d :: rest => unsigned d :: unsignedAll rest

end

mutual

/-- **Equal values differ in the signs of zeros only.** -/
theorem unsigned_eq_of_agrees {a b : Datum} (same : a.agrees b = true) : a.unsigned = b.unsigned := by
  unfold agrees at same
  split at same
  · rfl
  · rw [eq_of_beq same]
  · rw [unsigned, unsigned, Binary.unsigned_eq_of_beq same]
  · rw [eq_of_beq same]
  · rw [eq_of_beq same]
  · rw [eq_of_beq same]
  · rw [unsigned, unsigned, Location.unsigned_eq_of_beq same]
  · rw [Item.eq_of_beq same]
  · rw [unsigned, unsigned, Sound.unsigned_eq_of_beq same]
  · rw [unsigned, unsigned, Particle.unsigned_eq_of_beq same]
  · rw [Potion.eq_of_beq same]
  · rw [unsigned, unsigned, unsignedAll_eq_of_agreesAll same]
  · cases same

theorem unsignedAll_eq_of_agreesAll :
    ∀ {as bs : List Datum}, agreesAll as bs = true → unsignedAll as = unsignedAll bs
  | [], [], _ => rfl
  | a :: as, b :: bs, same => by
      rw [agreesAll, Bool.and_eq_true] at same
      rw [unsignedAll, unsignedAll, unsigned_eq_of_agrees same.1, unsignedAll_eq_of_agreesAll same.2]
  | [], _ :: _, same | _ :: _, [], same => by cases same

end

end Datum

end Blockwork
