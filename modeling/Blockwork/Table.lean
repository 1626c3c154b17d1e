/-!
# Tables

A finite dictionary kept as a list of entries in strictly ascending key order.  The order is part
of the type, so every dictionary has one representation: two tables that answer every look-up alike
are equal (`Table.ext`), and listing a table always lists it by ascending key.  Globals, parameters,
roles, open loops and stored documents are all tables, and whatever order an answer shows is this
one.

## Main statements

* `Table.get?_insert`: an insertion is seen at its key and nowhere else.
* `Table.get?_erase`: an erasure is seen at its key and nowhere else.
* `Table.ext`: a table is determined by its look-ups.
-/

namespace Blockwork

/-- A key type: a decidable strict order in which any two distinct keys are comparable. -/
class Key (κ : Type) extends LT κ where
  /-- The order can be tested. -/
  decLt : ∀ a b : κ, Decidable (a < b)
  /-- No key comes before itself. -/
  irrefl : ∀ a : κ, ¬ a < a
  /-- The order is transitive. -/
  trans : ∀ a b c : κ, a < b → b < c → a < c
  /-- Keys that do not come one before the other are the same. -/
  connected : ∀ a b : κ, ¬ a < b → ¬ b < a → a = b

namespace Key

variable {κ : Type} [Key κ]

instance (priority := low) (a b : κ) : Decidable (a < b) := Key.decLt a b

theorem ne_of_lt {a b : κ} (h : a < b) : a ≠ b := by
  intro e
  subst e
  exact Key.irrefl a h

/-- Equality of keys, decided through the order. -/
instance (priority := low) : DecidableEq κ := fun a b =>
  if h : a < b then .isFalse (ne_of_lt h)
  else if g : b < a then .isFalse fun e => ne_of_lt g e.symm
  else .isTrue (Key.connected a b h g)

end Key

/-- Text is ordered by its characters' code points, first difference first. -/
instance : Key String where
  decLt := inferInstance
  irrefl := String.lt_irrefl
  trans := fun _ _ _ => String.lt_trans
  connected := fun _ _ h g => String.le_antisymm (String.not_lt.1 g) (String.not_lt.1 h)

instance : Key Nat where
  decLt := inferInstance
  irrefl := Nat.lt_irrefl
  trans := fun _ _ _ => Nat.lt_trans
  connected := fun _ _ h g => Nat.le_antisymm (Nat.not_lt.1 g) (Nat.not_lt.1 h)

/-- Entries in strictly ascending key order. -/
def Ascending {κ β : Type} [Key κ] (entries : List (κ × β)) : Prop :=
  entries.Pairwise fun x y => x.1 < y.1

/-- A dictionary from `κ` to `β`. -/
structure Table (κ β : Type) [Key κ] where
  /-- The entries, by ascending key. -/
  entries : List (κ × β)
  /-- The order of the entries. -/
  ascending : Ascending entries

namespace Table

variable {κ β γ : Type} [Key κ]

/-- The table without entries. -/
def empty : Table κ β := ⟨[], List.Pairwise.nil⟩

instance : EmptyCollection (Table κ β) := ⟨empty⟩

instance : Inhabited (Table κ β) := ⟨empty⟩

instance [BEq β] : BEq (Table κ β) :=
  ⟨fun s t => s.entries.length == t.entries.length &&
    (s.entries.zip t.entries).all fun (x, y) => decide (x.1 = y.1) && x.2 == y.2⟩

/-- The value found first under a key in a list of entries. -/
def find (k : κ) : List (κ × β) → Option β
  | [] => none
  | (a, b) :: rest => if a = k then some b else find k rest

/-- Puts an entry at its place, replacing the one that has its key. -/
def place (k : κ) (v : β) : List (κ × β) → List (κ × β)
  | [] => [(k, v)]
  | (a, b) :: rest =>
    if k < a then (k, v) :: (a, b) :: rest
    else if a < k then (a, b) :: place k v rest
    else (k, v) :: rest

theorem mem_place {k : κ} {v : β} {x : κ × β} {l : List (κ × β)} (h : x ∈ place k v l) :
    x = (k, v) ∨ x ∈ l := by
  induction l with
  | nil => simpa [place] using h
  | cons e rest ih =>
    obtain ⟨a, b⟩ := e
    simp only [place] at h
    split at h
    · simpa using h
    · split at h
      · rcases List.mem_cons.1 h with h | h
        · simp [h]
        · rcases ih h with h | h <;> simp [h]
      · rcases List.mem_cons.1 h with h | h <;> simp [h]

theorem ascending_place (k : κ) (v : β) {l : List (κ × β)} (h : Ascending l) :
    Ascending (place k v l) := by
  induction l with
  | nil => exact List.pairwise_singleton _ _
  | cons e rest ih =>
    obtain ⟨a, b⟩ := e
    obtain ⟨first, later⟩ := List.pairwise_cons.1 h
    simp only [place]
    split
    · next lt =>
      refine List.pairwise_cons.2 ⟨fun y hy => ?_, h⟩
      rcases List.mem_cons.1 hy with rfl | hy
      · exact lt
      · exact Key.trans _ _ _ lt (first y hy)
    · next nlt =>
      split
      · next gt =>
        refine List.pairwise_cons.2 ⟨fun y hy => ?_, ih later⟩
        rcases mem_place hy with rfl | hy
        · exact gt
        · exact first y hy
      · next ngt =>
        obtain rfl := Key.connected _ _ nlt ngt
        exact List.pairwise_cons.2 ⟨first, later⟩

/-- The value stored under a key. -/
def get? (t : Table κ β) (k : κ) : Option β := find k t.entries

/-- Whether a key has a value. -/
def contains (t : Table κ β) (k : κ) : Bool := (t.get? k).isSome

/-- The value stored under a key, or a given one. -/
def getD (t : Table κ β) (k : κ) (default : β) : β := (t.get? k).getD default

/-- Stores a value under a key, replacing what was there. -/
def insert (t : Table κ β) (k : κ) (v : β) : Table κ β :=
  ⟨place k v t.entries, ascending_place k v t.ascending⟩

/-- Keeps the entries that pass a test. -/
def filter (t : Table κ β) (keep : κ → β → Bool) : Table κ β :=
  ⟨t.entries.filter fun e => keep e.1 e.2, t.ascending.filter _⟩

/-- Removes a key. -/
def erase (t : Table κ β) (k : κ) : Table κ β := t.filter fun a _ => decide (a ≠ k)

/-- Changes every value, keeping the keys. -/
def map (t : Table κ β) (f : β → γ) : Table κ γ :=
  ⟨t.entries.map fun e => (e.1, f e.2), by
    have h := t.ascending
    simpa [Ascending, List.pairwise_map] using h⟩

/-- The entries, by ascending key. -/
def toList (t : Table κ β) : List (κ × β) := t.entries

/-- The keys, ascending. -/
def keys (t : Table κ β) : List κ := t.entries.map Prod.fst

/-- The values, by ascending key. -/
def values (t : Table κ β) : List β := t.entries.map Prod.snd

/-- How many keys have a value. -/
def size (t : Table κ β) : Nat := t.entries.length

/-- Whether there is no entry. -/
def isEmpty (t : Table κ β) : Bool := t.entries.isEmpty

/-- The table of a list of entries; of two entries with one key the later one counts. -/
def ofList (l : List (κ × β)) : Table κ β := l.foldl (fun t e => t.insert e.1 e.2) empty

/-- Stores a value only if its key is free. -/
def insertNew (t : Table κ β) (k : κ) (v : β) : Table κ β :=
  if t.contains k then t else t.insert k v

/-! ## Look-ups -/

@[simp] theorem get?_empty (k : κ) : (empty : Table κ β).get? k = none := rfl

theorem find_place (k a : κ) (v : β) {l : List (κ × β)} (h : Ascending l) :
    find a (place k v l) = if k = a then some v else find a l := by
  induction l with
  | nil => simp [place, find]
  | cons e rest ih =>
    obtain ⟨c, b⟩ := e
    obtain ⟨first, later⟩ := List.pairwise_cons.1 h
    simp only [place]
    split
    · simp [find]
    · next nlt =>
      split
      · next gt =>
        simp only [find, ih later]
        by_cases hc : c = a
        · subst hc
          simp [(Key.ne_of_lt gt).symm]
        · simp [hc]
      · next ngt =>
        obtain rfl := Key.connected _ _ nlt ngt
        by_cases hk : k = a <;> simp [find, hk]

/-- An insertion is seen at its key and nowhere else. -/
theorem get?_insert (t : Table κ β) (k a : κ) (v : β) :
    (t.insert k v).get? a = if k = a then some v else t.get? a :=
  find_place k a v t.ascending

@[simp] theorem get?_insert_self (t : Table κ β) (k : κ) (v : β) :
    (t.insert k v).get? k = some v := by simp [get?_insert]

theorem get?_insert_of_ne (t : Table κ β) {k a : κ} (v : β) (h : k ≠ a) :
    (t.insert k v).get? a = t.get? a := by simp [get?_insert, h]

theorem find_erase (k a : κ) (l : List (κ × β)) :
    find a (l.filter fun e => decide (e.1 ≠ k)) = if k = a then none else find a l := by
  induction l with
  | nil => simp [find]
  | cons e rest ih =>
    obtain ⟨c, b⟩ := e
    by_cases hc : c = k
    · subst hc
      simp only [List.filter, ne_eq, not_true_eq_false, decide_false, ih, find]
      by_cases ha : c = a <;> simp [ha]
    · simp only [List.filter, ne_eq, hc, not_false_eq_true, decide_true, find, ih]
      by_cases ha : c = a
      · subst ha
        simp [Ne.symm hc]
      · simp [ha]

/-- An erasure is seen at its key and nowhere else. -/
theorem get?_erase (t : Table κ β) (k a : κ) :
    (t.erase k).get? a = if k = a then none else t.get? a :=
  find_erase k a t.entries

theorem find_map (f : β → γ) (a : κ) (l : List (κ × β)) :
    find a (l.map fun e => (e.1, f e.2)) = (find a l).map f := by
  induction l with
  | nil => rfl
  | cons e rest ih =>
    by_cases h : e.1 = a <;> simp [find, h, ih]

/-- A changed table is changed at every key. -/
theorem get?_map (t : Table κ β) (f : β → γ) (a : κ) : (t.map f).get? a = (t.get? a).map f :=
  find_map f a t.entries

theorem find_eq_none_of_lt {k : κ} {l : List (κ × β)} (h : ∀ e ∈ l, k < e.1) : find k l = none := by
  induction l with
  | nil => rfl
  | cons e rest ih =>
    have hk := h e (by simp)
    simp [find, (Key.ne_of_lt hk).symm, ih fun x hx => h x (by simp [hx])]

theorem entries_ext {l m : List (κ × β)} (hl : Ascending l) (hm : Ascending m)
    (h : ∀ k, find k l = find k m) : l = m := by
  induction l generalizing m with
  | nil =>
    cases m with
    | nil => rfl
    | cons e rest => simpa [find] using h e.1
  | cons x xs ih =>
    obtain ⟨fx, lx⟩ := List.pairwise_cons.1 hl
    cases m with
    | nil => simpa [find] using h x.1
    | cons y ys =>
      obtain ⟨fy, ly⟩ := List.pairwise_cons.1 hm
      have hxy : x.1 = y.1 := by
        refine Key.connected _ _ (fun lt => ?_) (fun gt => ?_)
        · have := h x.1
          rw [find_eq_none_of_lt (l := y :: ys)] at this
          · simp [find] at this
          · intro e he
            rcases List.mem_cons.1 he with rfl | he
            · exact lt
            · exact Key.trans _ _ _ lt (fy e he)
        · have := h y.1
          rw [find_eq_none_of_lt (l := x :: xs)] at this
          · simp [find] at this
          · intro e he
            rcases List.mem_cons.1 he with rfl | he
            · exact gt
            · exact Key.trans _ _ _ gt (fx e he)
      have hv : x.2 = y.2 := by
        have := h x.1
        simpa [find, hxy] using this
      have rest : xs = ys := by
        refine ih lx ly fun k => ?_
        have := h k
        by_cases hk : x.1 = k
        · subst hk
          rw [find_eq_none_of_lt fx, find_eq_none_of_lt (by rw [hxy]; exact fy)]
        · simpa [find, hk, hxy ▸ hk] using this
      rw [Prod.ext hxy hv, rest]

/-- A table is determined by its look-ups. -/
theorem ext {s t : Table κ β} (h : ∀ k, s.get? k = t.get? k) : s = t := by
  obtain ⟨l, hl⟩ := s
  obtain ⟨m, hm⟩ := t
  have : l = m := entries_ext hl hm h
  subst this
  rfl

end Table

end Blockwork
