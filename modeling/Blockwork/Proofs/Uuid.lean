import Blockwork.Proofs.Json.Scanning
import Blockwork.Uuid
import Mathlib.Algebra.Ring.Nat

/-!
# Written identities

An identity is read back from its written form, so different identities are written differently.
The digits of a number are read back up to a power of sixteen, and the hyphens between the groups
are found again because every group but the last is followed by one.
-/

namespace Blockwork.Uuid

@[simp] theorem length_hexDigits (n v : Nat) : (hexDigits n v).length = n := by
  induction n generalizing v with
  | zero => rfl
  | succ n ih => rw [hexDigits, List.length_append, ih, List.length_singleton]

theorem hexNumber?_append (ds : List Char) (c : Char) :
    hexNumber? (ds ++ [c]) =
      (hexNumber? ds).bind fun n => (Json.hexValue? c).map fun d => 16 * n + d := by
  unfold hexNumber?
  rw [List.foldlM_append]
  cases ds.foldlM (fun n c => (Json.hexValue? c).map fun d => 16 * n + d) 0 with
  | none => rfl
  | some n => cases digit : Json.hexValue? c <;> simp [digit]

/-- The last digits of a number are its value up to a power of sixteen. -/
theorem hexNumber?_hexDigits (n v : Nat) : hexNumber? (hexDigits n v) = some (v % 16 ^ n) := by
  induction n generalizing v with
  | zero => simp [hexDigits, hexNumber?, Nat.mod_one]
  | succ n ih =>
      have digit : Json.hexValue? (Json.hexDigit (v % 16)) = some (v % 16) :=
        Json.hexValue?_hexDigit _ (Nat.mod_lt _ (by decide))
      have split : v % 16 ^ (n + 1) = v % 16 + 16 * (v / 16 % 16 ^ n) := by
        rw [Nat.pow_succ, Nat.mul_comm, Nat.mod_mul]
      rw [hexDigits, hexNumber?_append, ih, digit, split]
      simp [Nat.add_comm]

theorem length_grouped {gs : List Nat} {ds : List Char} (nonempty : gs ≠ [])
    (sizes : ds.length = gs.sum) : (grouped gs ds).length + 1 = ds.length + gs.length := by
  induction gs generalizing ds with
  | nil => exact absurd rfl nonempty
  | cons n rest ih =>
      cases rest with
      | nil =>
          have size : ds.length = n := by simpa using sizes
          simp [grouped, size]
      | cons m rest =>
          have first : n ≤ ds.length := by rw [sizes, List.sum_cons]; omega
          have others := @ih (ds.drop n) (by simp) (by simp [sizes])
          rw [List.length_drop] at others
          simp only [grouped, List.length_append, List.length_take, List.length_cons] at others ⊢
          omega

/-- Cutting digits into groups can be undone. -/
theorem ungrouped?_grouped {gs : List Nat} {ds : List Char} (nonempty : gs ≠ [])
    (sizes : ds.length = gs.sum) : ungrouped? gs (grouped gs ds) = some ds := by
  induction gs generalizing ds with
  | nil => exact absurd rfl nonempty
  | cons n rest ih =>
      cases rest with
      | nil =>
          have size : ds.length = n := by simpa using sizes
          simp [grouped, ungrouped?, ← size]
      | cons m rest =>
          have first : (ds.take n).length = n := by
            rw [List.length_take, sizes, List.sum_cons]
            omega
          have others := @ih (ds.drop n) (by simp) (by simp [sizes])
          rw [grouped, ungrouped?, List.drop_left' first]
          · simp only [others, List.take_left' first, Option.map_some, List.take_append_drop]
          · simp
          · simp

theorem ofDigits?_hexDigits (u : Uuid) : ofDigits? (hexDigits 32 u.value.toNat) = some u := by
  have small : u.value.toNat % 16 ^ 32 = u.value.toNat := Nat.mod_eq_of_lt u.value.isLt
  rw [ofDigits?, if_pos (length_hexDigits 32 _), hexNumber?_hexDigits, small]
  simp

/-- **An identity is read back from its written form.** -/
theorem parse?_text (u : Uuid) : parse? u.text = some u := by
  have digits := u.ofDigits?_hexDigits
  have size : (hexDigits 32 u.value.toNat).length = groups.sum := length_hexDigits 32 _
  rw [parse?, text, String.toList_ofList]
  generalize hexDigits 32 u.value.toNat = ds at digits size
  have length : (grouped groups ds).length = 36 := by
    have total := length_grouped (by decide) size
    rw [size] at total
    exact Nat.succ.inj total
  rw [length]
  show ofGrouped? (grouped groups ds) = some u
  rw [ofGrouped?, ungrouped?_grouped (by decide) size, Option.bind_some, digits]

/-- Different identities are written differently. -/
theorem text_injective {u v : Uuid} (h : u.text = v.text) : u = v := by
  have read := parse?_text u
  rw [h, parse?_text v] at read
  exact (Option.some.inj read).symm

end Blockwork.Uuid
