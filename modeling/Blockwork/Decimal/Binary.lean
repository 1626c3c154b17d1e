/-!
# Binary floating point, exactly

A finite double is `m · 2^q` with natural `m`.  This module takes doubles and singles apart into
that form and puts a quotient of naturals back together, rounded to the nearest representable number
and, half way between two, to the one with the even last bit.  Whole parts, remainders, fused
multiplication and the changes of width are computed on the exact values and rounded once.

The encoding needs no case for subnormal numbers or for a carry: with the exponent bounded below by
that of the least subnormal, `(q - least) · 2^fraction + m` is the bit pattern in every case, and
rounding `m` up to the next power of two lands on the next exponent by itself.
-/

namespace Blockwork.Binary

/-- An interchange format: how many bits hold the fraction and how many the exponent. -/
structure Format where
  /-- Bits of the fraction. -/
  fraction : Nat
  /-- Bits of the exponent. -/
  exponent : Nat

/-- The sixty-four bit format. -/
def double : Format := ⟨52, 11⟩

/-- The thirty-two bit format. -/
def single : Format := ⟨23, 8⟩

namespace Format

/-- The exponent of the least positive number. -/
def least (f : Format) : Int := 2 - (Nat.pow 2 (f.exponent - 1) : Nat) - (f.fraction : Int)

/-- The bit pattern of positive infinity. -/
def infinity (f : Format) : Nat := (Nat.pow 2 f.exponent - 1) * Nat.pow 2 f.fraction

/-- The bit that carries the sign. -/
def signBit (f : Format) : Nat := Nat.pow 2 (f.exponent + f.fraction)

end Format

/-- The natural number nearest to `n / d`, the even one of two. -/
def divNearest (n d : Nat) : Nat :=
  let q := n / d
  let r := n % d
  if 2 * r < d then q else if d < 2 * r then q + 1 else if q % 2 = 0 then q else q + 1

/-- The greatest `k` with `2^k ≤ n / d`, for positive `n` and `d`. -/
def floorLog2 (n d : Nat) : Int :=
  let k : Int := (n.log2 : Int) - d.log2
  let reached := if 0 ≤ k then d * Nat.pow 2 k.toNat ≤ n else d ≤ n * Nat.pow 2 (-k).toNat
  if reached then k else k - 1

/-- The bit pattern, without sign, of the number nearest to `n / d`. -/
def encode (f : Format) (n d : Nat) : Nat :=
  if n = 0 then 0
  else
    let q := max (floorLog2 n d - f.fraction) f.least
    let m := if 0 ≤ q then divNearest n (d * Nat.pow 2 q.toNat) else divNearest (n * Nat.pow 2 (-q).toNat) d
    min ((q - f.least).toNat * Nat.pow 2 f.fraction + m) f.infinity

/-- The bit pattern, without sign, of the number nearest to `m · 2^q`. -/
def encodeScaled (f : Format) (m : Nat) (q : Int) : Nat :=
  if 0 ≤ q then encode f (m * Nat.pow 2 q.toNat) 1 else encode f m (Nat.pow 2 (-q).toNat)

/-- What a bit pattern stands for. -/
inductive Reading where
  /-- Not a number. -/
  | nan
  /-- An infinity of either sign. -/
  | infinite (negative : Bool)
  /-- The number `± mantissa · 2^exponent`. -/
  | finite (negative : Bool) (mantissa : Nat) (exponent : Int)

/-- Takes a bit pattern apart. -/
def decode (f : Format) (bits : Nat) : Reading :=
  let negative := f.signBit ≤ bits
  let magnitude := bits % f.signBit
  let field := magnitude / Nat.pow 2 f.fraction
  let part := magnitude % Nat.pow 2 f.fraction
  if f.infinity < magnitude then .nan
  else if magnitude = f.infinity then .infinite negative
  else if field = 0 then .finite negative part f.least
  else .finite negative (part + Nat.pow 2 f.fraction) (f.least + field - 1)

/-- Puts the sign in front of a bit pattern. -/
def withSign (f : Format) (negative : Bool) (magnitude : Nat) : Nat :=
  if negative then f.signBit + magnitude else magnitude

/-- The double with a given sign and magnitude pattern. -/
def ofMagnitude (negative : Bool) (magnitude : Nat) : Float :=
  Float.ofBits (withSign double negative magnitude).toUInt64

/-- The single with a given sign and magnitude pattern. -/
def ofMagnitudeSingle (negative : Bool) (magnitude : Nat) : Float32 :=
  Float32.ofBits (withSign single negative magnitude).toUInt32

/-- What a double stands for. -/
def read (x : Float) : Reading := decode double x.toBits.toNat

/-- What a single stands for. -/
def readSingle (x : Float32) : Reading := decode single x.toBits.toNat

/-- The double that is not a number. -/
def nan : Float := Float.ofBits 0x7ff8000000000000

/-- Whether a double is a number other than the infinities. -/
def isFinite (x : Float) : Bool :=
  match read x with
  | .finite .. => true
  | _ => false

/-- Whether a single is a number other than the infinities. -/
def isFiniteSingle (x : Float32) : Bool :=
  match readSingle x with
  | .finite .. => true
  | _ => false

/-- The double nearest to a natural number. -/
def ofNat (n : Nat) : Float := ofMagnitude false (encode double n 1)

/-- The double nearest to a whole number. -/
def ofInt (n : Int) : Float := ofMagnitude (decide (n < 0)) (encode double n.natAbs 1)

/-- The single nearest to a whole number. -/
def singleOfInt (n : Int) : Float32 :=
  ofMagnitudeSingle (decide (n < 0)) (encode single n.natAbs 1)

/-- The same number as a double. -/
def widen (x : Float32) : Float :=
  match readSingle x with
  | .nan => nan
  | .infinite s => ofMagnitude s double.infinity
  | .finite s m q => ofMagnitude s (encodeScaled double m q)

/-- The single nearest to a double. -/
def narrow (x : Float) : Float32 :=
  match read x with
  | .nan => Float32.ofBits 0x7fc00000
  | .infinite s => ofMagnitudeSingle s single.infinity
  | .finite s m q => ofMagnitudeSingle s (encodeScaled single m q)

/-! ## Whole parts -/

/-- The whole part of `m · 2^q`. -/
def wholeDown (m : Nat) (q : Int) : Nat :=
  if 0 ≤ q then m * Nat.pow 2 q.toNat else m / Nat.pow 2 (-q).toNat

/-- The least natural number not below `m · 2^q`. -/
def wholeUp (m : Nat) (q : Int) : Nat :=
  if 0 ≤ q then m * Nat.pow 2 q.toNat else (m + Nat.pow 2 (-q).toNat - 1) / Nat.pow 2 (-q).toNat

/-- The natural number nearest to `m · 2^q`, the greater one of two. -/
def wholeNearest (m : Nat) (q : Int) : Nat :=
  if 0 ≤ q then m * Nat.pow 2 q.toNat else (2 * m + Nat.pow 2 (-q).toNat) / (2 * Nat.pow 2 (-q).toNat)

/-- Whether a double is a whole number. -/
def isWhole (x : Float) : Bool :=
  match read x with
  | .finite _ m q => decide (0 ≤ q) || m % Nat.pow 2 (-q).toNat == 0
  | _ => false

/-- Replaces the magnitude by a natural number; what is not finite stays as it is. -/
def mapWhole (x : Float) (f : Bool → Nat → Int → Nat) : Float :=
  match read x with
  | .finite s m q => ofMagnitude s (encode double (f s m q) 1)
  | _ => x

/-- The greatest whole number not above. -/
def floor (x : Float) : Float := mapWhole x fun s m q => if s then wholeUp m q else wholeDown m q

/-- The least whole number not below. -/
def ceil (x : Float) : Float := mapWhole x fun s m q => if s then wholeDown m q else wholeUp m q

/-- The nearest whole number; a half goes away from zero. -/
def round (x : Float) : Float := mapWhole x fun _ m q => wholeNearest m q

/-- The whole part as an integer kept between `low` and `high`; zero for what is not a number. -/
def saturate (low high : Int) (x : Float) : Int :=
  match read x with
  | .nan => 0
  | .infinite s => if s then low else high
  | .finite s m q =>
    let n : Int := wholeDown m q
    max low (min high (if s then -n else n))

/-! ## Exact arithmetic -/

/-- `m · 2^q` as a multiple of `2^e`, for `e ≤ q`. -/
def unitsAt (e : Int) (s : Bool) (m : Nat) (q : Int) : Int :=
  let n : Int := (m * Nat.pow 2 (q - e).toNat : Nat)
  if s then -n else n

/-- `a · b + c` with a single rounding. -/
def fusedMulAdd (a b c : Float) : Float :=
  match read a, read b, read c with
  | .finite sa ma qa, .finite sb mb qb, .finite sc mc qc =>
    let e := min (qa + qb) qc
    let s := sa != sb
    let sum := unitsAt e s (ma * mb) (qa + qb) + unitsAt e sc mc qc
    if sum = 0 then ofMagnitude (s && sc) 0
    else ofMagnitude (decide (sum < 0)) (encodeScaled double sum.natAbs e)
  | .finite .., .finite .., _ => c
  | _, _, _ => a * b + c

/-- The remainder of the division with quotient rounded toward zero; it has the dividend's sign. -/
def remainder (x y : Float) : Float :=
  match read x, read y with
  | .finite s m q, .finite _ n r =>
    if n = 0 then nan
    else
      let e := min q r
      ofMagnitude s (encodeScaled double ((m * Nat.pow 2 (q - e).toNat) % (n * Nat.pow 2 (r - e).toNat)) e)
  | .finite .., .infinite _ => x
  | _, _ => nan

end Blockwork.Binary
