import Blockwork.Decimal.Binary

/-!
# Random numbers

Numbers are drawn from a source of sixty-four bit words.  Any stream of words is a source, and nothing
that is said of draws depends on which it is; `Dice.ofSeed` has one that can be computed.  A unit draw
lies in `[0, 1)`, a draw below `n` in `0 … n - 1`.
-/

namespace Blockwork

/-- A random source, and how far it has been used. -/
structure Dice where
  /-- Its words. -/
  words : Nat → UInt64
  /-- How many of them have been drawn. -/
  drawn : Nat := 0

namespace Dice

/-- The words that come of a seed: the bits of a counter that moves in equal steps, mixed. -/
def mixed (seed : UInt64) (n : Nat) : UInt64 :=
  let s := seed + 0x9e3779b97f4a7c15 * (n.toUInt64 + 2)
  let z := (s ^^^ (s >>> 30)) * 0xbf58476d1ce4e5b9
  let z := (z ^^^ (z >>> 27)) * 0x94d049bb133111eb
  z ^^^ (z >>> 31)

/-- A source from a seed. -/
def ofSeed (seed : Nat) : Dice := { words := mixed seed.toUInt64 }

instance : Inhabited Dice := ⟨ofSeed 0⟩

/-- The next word. -/
def word (d : Dice) : UInt64 × Dice := (d.words d.drawn, { d with drawn := d.drawn + 1 })

/-- A natural number below `n`; zero when there is none. -/
def below (n : Nat) (d : Dice) : Nat × Dice :=
  let (w, d) := d.word
  (w.toNat % n, d)

/-- A number between zero and one, one excluded. -/
def unit (d : Dice) : Float × Dice :=
  let (w, d) := d.word
  (Binary.ofMagnitude false (Binary.encode Binary.double (w.toNat / Nat.pow 2 11) (Nat.pow 2 53)), d)

/-- A number between two bounds. -/
def between (low high : Float) (d : Dice) : Float × Dice :=
  let (u, d) := d.unit
  let x := low + u * (high - low)
  (if high < x then high else if x < low then low else x, d)

/-- An element of a list. -/
def choose {α : Type} (l : List α) (d : Dice) : Option α × Dice :=
  match l with
  | [] => (none, d)
  | l =>
    let (i, d) := d.below l.length
    (l[i]?, d)

end Dice

end Blockwork
