import Blockwork.Table
import Mathlib.Data.List.Pairwise

/-!
# Tables and lists of entries

A table is its list of entries, so each look-up is a membership (`mem_toList_iff`), and a table can
be rebuilt by inserting its entries one after another (`foldl_insert_toList`).
-/

namespace Blockwork.Table

variable {κ β : Type} [Key κ]

theorem contains_iff {t : Table κ β} {k : κ} : t.contains k ↔ ∃ v, t.get? k = some v :=
  Option.isSome_iff_exists

theorem contains_eq_false_iff {t : Table κ β} {k : κ} : t.contains k = false ↔ t.get? k = none := by
  rw [contains, Option.isSome_eq_false_iff, Option.isNone_iff_eq_none]

/-- Of two insertions under one key the later counts. -/
theorem insert_insert (t : Table κ β) (k : κ) (v w : β) :
    (t.insert k v).insert k w = t.insert k w := by
  apply ext
  intro a
  simp only [get?_insert]
  split <;> rfl

theorem erase_of_get?_eq_none {t : Table κ β} {k : κ} (h : t.get? k = none) : t.erase k = t := by
  apply ext
  intro a
  rw [get?_erase]
  split
  · next same => rw [← same, h]
  · rfl

theorem find_filter (keep : κ → Bool) (a : κ) (l : List (κ × β)) :
    find a (l.filter fun e => keep e.1) = if keep a then find a l else none := by
  induction l with
  | nil => simp [find]
  | cons e rest ih =>
      rw [List.filter_cons, find]
      by_cases same : e.1 = a
      · subst same
        by_cases kept : keep e.1 <;> simp [kept, find, ih]
      · by_cases kept : keep e.1 <;> simp [kept, same, find, ih]

/-- Keeping some of the keys. -/
theorem get?_filter (t : Table κ β) (keep : κ → Bool) (a : κ) :
    (t.filter fun k _ => keep k).get? a = if keep a then t.get? a else none :=
  find_filter keep a t.entries

/-- What is found in a table of one entry. -/
theorem get?_single_eq_some {k a : κ} {v w : β} :
    (insert empty k v).get? a = some w ↔ k = a ∧ v = w := by
  rw [get?_insert, get?_empty]
  by_cases h : k = a <;> simp [h]

/-- The keys of a list of entries in ascending order are pairwise distinct. -/
theorem nodup_keys {l : List (κ × β)} (h : Ascending l) : (l.map Prod.fst).Nodup := by
  rw [List.Nodup, List.pairwise_map]
  exact h.imp Key.ne_of_lt

theorem find_eq_none_iff {k : κ} {l : List (κ × β)} : find k l = none ↔ k ∉ l.map Prod.fst := by
  induction l with
  | nil => simp [find]
  | cons e rest ih =>
      rw [find, List.map_cons, List.mem_cons, not_or]
      split
      · next h => simp [h]
      · next h => rw [ih]; simp [Ne.symm h]

theorem find_append (k : κ) (l l' : List (κ × β)) :
    find k (l ++ l') = (find k l).or (find k l') := by
  induction l with
  | nil => rfl
  | cons e rest ih =>
      rw [List.cons_append, find, find]
      split
      · rfl
      · exact ih

/-- In a list with distinct keys an entry is what is found under its key. -/
theorem mem_iff_find {l : List (κ × β)} (nodup : (l.map Prod.fst).Nodup) {k : κ} {v : β} :
    (k, v) ∈ l ↔ find k l = some v := by
  induction l with
  | nil => simp [find]
  | cons e rest ih =>
      rw [List.map_cons, List.nodup_cons] at nodup
      obtain ⟨fresh, nodup⟩ := nodup
      rw [List.mem_cons, find]
      split
      · next h =>
        subst h
        constructor
        · rintro (h | h)
          · rw [← h]
          · exact absurd (List.mem_map_of_mem h) fresh
        · intro h
          exact .inl (Prod.ext rfl (Option.some.inj h).symm)
      · next h =>
        rw [← ih nodup]
        constructor
        · rintro (rfl | h')
          · exact absurd rfl h
          · exact h'
        · exact .inr

theorem mem_toList_iff (t : Table κ β) (k : κ) (v : β) : (k, v) ∈ t.toList ↔ t.get? k = some v :=
  mem_iff_find (nodup_keys t.ascending)

theorem mem_keys_iff {t : Table κ β} {k : κ} : k ∈ t.keys ↔ t.contains k := by
  simp only [contains_iff, ← mem_toList_iff]
  exact List.mem_map.trans ⟨fun ⟨e, he, hk⟩ => ⟨e.2, hk ▸ he⟩, fun ⟨v, hv⟩ => ⟨(k, v), hv, rfl⟩⟩

theorem mem_values_iff {t : Table κ β} {v : β} : v ∈ t.values ↔ ∃ k, t.get? k = some v := by
  simp only [← mem_toList_iff]
  exact List.mem_map.trans ⟨fun ⟨e, he, hv⟩ => ⟨e.1, hv ▸ he⟩, fun ⟨k, hk⟩ => ⟨(k, v), hk, rfl⟩⟩

/-- Inserting entries with distinct keys one after another. -/
theorem get?_foldl_insert {l : List (κ × β)} (nodup : (l.map Prod.fst).Nodup) (t : Table κ β)
    (k : κ) :
    (l.foldl (fun t e => t.insert e.1 e.2) t).get? k = (find k l).or (t.get? k) := by
  induction l generalizing t with
  | nil => rfl
  | cons e rest ih =>
      rw [List.map_cons, List.nodup_cons] at nodup
      obtain ⟨fresh, nodup⟩ := nodup
      rw [List.foldl_cons, ih nodup, get?_insert, find]
      split
      · next h =>
        subst h
        rw [find_eq_none_iff.mpr fresh]
        rfl
      · rfl

/-- A table is rebuilt by inserting its entries. -/
theorem foldl_insert_toList (t : Table κ β) :
    t.toList.foldl (fun t e => t.insert e.1 e.2) empty = t := by
  apply ext
  intro k
  rw [toList, get?_foldl_insert (nodup_keys t.ascending), get?_empty, Option.or_none]
  rfl

/-! ## Tables built entry by entry -/

/-- The second table is the first one with a value for each entry inserted, in order; `R` relates
an entry to the values it may be inserted with. -/
def Inserts {γ : Type} (R : κ → β → γ → Prop) :
    List (κ × β) → Table κ γ → Table κ γ → Prop
  | [], t, u => t = u
  | e :: rest, t, u => ∃ v, R e.1 e.2 v ∧ Inserts R rest (t.insert e.1 v) u

theorem inserts_iff {γ : Type} {R : κ → β → γ → Prop} {l : List (κ × β)}
    (nodup : (l.map Prod.fst).Nodup) {t u : Table κ γ} :
    Inserts R l t u ↔ (∀ e ∈ l, ∃ v, R e.1 e.2 v ∧ u.get? e.1 = some v) ∧
      ∀ k, k ∉ l.map Prod.fst → u.get? k = t.get? k := by
  induction l generalizing t with
  | nil =>
      constructor
      · rintro rfl
        exact ⟨fun e he => absurd he (List.not_mem_nil), fun _ _ => rfl⟩
      · rintro ⟨-, same⟩
        exact ext fun k => (same k (List.not_mem_nil)).symm
  | cons e rest ih =>
      rw [List.map_cons, List.nodup_cons] at nodup
      obtain ⟨fresh, nodup⟩ := nodup
      simp only [Inserts, ih nodup, List.map_cons, List.mem_cons, not_or]
      constructor
      · rintro ⟨v, related, found, kept⟩
        refine ⟨fun d hd => ?_, fun k hk => ?_⟩
        · rcases hd with rfl | hd
          -- no later entry has the same key
          · exact ⟨v, related, by rw [kept _ fresh, get?_insert_self]⟩
          · exact found d hd
        · rw [kept k hk.2, get?_insert_of_ne _ _ (Ne.symm hk.1)]
      · rintro ⟨found, kept⟩
        obtain ⟨v, related, here⟩ := found e (.inl rfl)
        refine ⟨v, related, fun d hd => found d (.inr hd), fun k hk => ?_⟩
        by_cases same : e.1 = k
        · rw [← same, here, get?_insert_self]
        · rw [kept k ⟨Ne.symm same, hk⟩, get?_insert_of_ne _ _ same]

/-- **A table built from another one entry by entry is related to it look-up by look-up.** -/
theorem inserts_toList_iff {γ : Type} {R : κ → β → γ → Prop} {t : Table κ β} {u : Table κ γ} :
    Inserts R t.toList empty u ↔ ∀ k, Option.Rel (R k) (t.get? k) (u.get? k) := by
  rw [inserts_iff (l := t.toList) (nodup_keys t.ascending)]
  constructor
  · rintro ⟨found, kept⟩ k
    cases here : t.get? k with
    | none =>
        rw [kept k (find_eq_none_iff.mp here), get?_empty]
        exact .none
    | some b =>
        obtain ⟨v, related, there⟩ := found (k, b) ((t.mem_toList_iff k b).mpr here)
        rw [there]
        exact .some related
  · intro related
    refine ⟨fun e he => ?_, fun k hk => ?_⟩
    · have here := related e.1
      rw [(t.mem_toList_iff e.1 e.2).mp he] at here
      cases there : u.get? e.1 with
      | none => rw [there] at here; cases here
      | some v =>
          rw [there] at here
          cases here with
          | some h => exact ⟨v, h, rfl⟩
    · have here := related k
      rw [show t.get? k = none from find_eq_none_iff.mpr hk] at here
      cases there : u.get? k with
      | none => rfl
      | some v => rw [there] at here; cases here

/-- A fold that inserts at every step, in any monad in which a result says that every step had
one. -/
theorem foldlM_eq_pure_iff {γ : Type} {m : Type → Type} [Monad m]
    (unbind : ∀ {x : m (Table κ γ)} {f : Table κ γ → m (Table κ γ)} {u : Table κ γ},
      x >>= f = pure u ↔ ∃ t, x = pure t ∧ f t = pure u)
    (unpure : ∀ {t u : Table κ γ}, (pure t : m (Table κ γ)) = pure u ↔ t = u)
    {R : κ → β → γ → Prop} {l : List (κ × β)} {step : Table κ γ → κ × β → m (Table κ γ)}
    (insert : ∀ e ∈ l, ∀ t u, step t e = pure u ↔ ∃ v, R e.1 e.2 v ∧ t.insert e.1 v = u)
    {t u : Table κ γ} : l.foldlM step t = pure u ↔ Inserts R l t u := by
  induction l generalizing t with
  | nil => exact unpure
  | cons e rest ih =>
      have first := insert e (List.mem_cons_self ..) t
      rw [List.foldlM_cons, unbind, Inserts]
      simp only [first, ih fun d hd => insert d (List.mem_cons_of_mem _ hd)]
      constructor
      · rintro ⟨-, ⟨v, related, rfl⟩, done⟩
        exact ⟨v, related, done⟩
      · rintro ⟨v, related, done⟩
        exact ⟨_, ⟨v, related, rfl⟩, done⟩

theorem foldlM_eq_ok_iff {γ ε : Type} {R : κ → β → γ → Prop} {l : List (κ × β)}
    {step : Table κ γ → κ × β → Except ε (Table κ γ)}
    (insert : ∀ e ∈ l, ∀ t u, step t e = .ok u ↔ ∃ v, R e.1 e.2 v ∧ t.insert e.1 v = u)
    {t u : Table κ γ} : l.foldlM step t = .ok u ↔ Inserts R l t u := by
  refine foldlM_eq_pure_iff ?_ ?_ insert
  · intro x f u
    cases x <;> simp [bind, Except.bind, pure, Except.pure]
  · intro t u
    exact ⟨Except.ok.inj, congrArg _⟩

theorem foldlM_eq_some_iff {γ : Type} {R : κ → β → γ → Prop} {l : List (κ × β)}
    {step : Table κ γ → κ × β → Option (Table κ γ)}
    (insert : ∀ e ∈ l, ∀ t u, step t e = some u ↔ ∃ v, R e.1 e.2 v ∧ t.insert e.1 v = u)
    {t u : Table κ γ} : l.foldlM step t = some u ↔ Inserts R l t u :=
  foldlM_eq_pure_iff Option.bind_eq_some_iff Option.some_inj insert

/-! ## Tables related look-up by look-up -/

theorem exists_inserts {γ : Type} {R : κ → β → γ → Prop} {l : List (κ × β)}
    (each : ∀ e ∈ l, ∃ v, R e.1 e.2 v) (t : Table κ γ) : ∃ u, Inserts R l t u := by
  induction l generalizing t with
  | nil => exact ⟨t, rfl⟩
  | cons e rest ih =>
      obtain ⟨v, related⟩ := each e (List.mem_cons_self ..)
      obtain ⟨u, done⟩ := ih (fun d hd => each d (List.mem_cons_of_mem _ hd)) (t.insert e.1 v)
      exact ⟨u, v, related, done⟩

/-- Two relations between tables, one after the other. -/
theorem exists_rel_iff {γ δ : Type} {R : κ → β → γ → Prop} {S : κ → γ → δ → Prop} {t : Table κ β}
    {u : Table κ δ} :
    (∃ m : Table κ γ, (∀ k, Option.Rel (R k) (t.get? k) (m.get? k)) ∧
        ∀ k, Option.Rel (S k) (m.get? k) (u.get? k)) ↔
      ∀ k, Option.Rel (fun a c => ∃ b, R k a b ∧ S k b c) (t.get? k) (u.get? k) := by
  constructor
  · rintro ⟨m, before, after⟩ k
    replace before := before k
    replace after := after k
    cases start : t.get? k <;> cases middle : m.get? k <;> cases stop : u.get? k <;>
      simp only [start, middle, stop, Option.rel_some_some, Option.not_rel_none_some,
        Option.not_rel_some_none, Option.rel_none_none] at before after ⊢
    exact ⟨_, before, after⟩
  · intro related
    -- the values in between are chosen entry by entry
    have each : ∀ e ∈ t.toList, ∃ b, R e.1 e.2 b ∧ ∃ c, u.get? e.1 = some c ∧ S e.1 b c := by
      rintro ⟨k, a⟩ here
      specialize related k
      rw [(t.mem_toList_iff k a).mp here] at related
      revert related
      cases u.get? k <;> simp
    obtain ⟨m, chosen⟩ := exists_inserts
      (R := fun k a b => R k a b ∧ ∃ c, u.get? k = some c ∧ S k b c) each empty
    have between := inserts_toList_iff.mp chosen
    refine ⟨m, fun k => ?_, fun k => ?_⟩ <;> replace between := between k <;>
      replace related := related k
    · cases start : t.get? k <;> cases middle : m.get? k <;>
        simp only [start, middle, Option.rel_some_some, Option.not_rel_none_some,
          Option.not_rel_some_none, Option.rel_none_none] at between ⊢
      exact between.1
    · cases start : t.get? k <;> cases middle : m.get? k <;> cases stop : u.get? k <;>
        simp [start, middle, stop] at between related ⊢
      exact between.2

/-- A table that is related to another one by a function on part of its values is the other one with
the function applied. -/
theorem rel_iff_eq_map {γ : Type} {P : β → Prop} {f : β → γ} {t : Table κ β} {u : Table κ γ} :
    (∀ k, Option.Rel (fun a b => P a ∧ b = f a) (t.get? k) (u.get? k)) ↔
      (∀ a ∈ t.values, P a) ∧ u = t.map f := by
  have each : (∀ a ∈ t.values, P a) ↔ ∀ k a, t.get? k = some a → P a := by
    simp only [mem_values_iff]
    exact ⟨fun h k a here => h a ⟨k, here⟩, fun h a ⟨k, here⟩ => h k a here⟩
  have same : u = t.map f ↔ ∀ k, u.get? k = (t.get? k).map f :=
    ⟨fun h k => h ▸ get?_map .., fun h => ext fun k => (h k).trans (get?_map ..).symm⟩
  rw [each, same, ← forall_and]
  refine forall_congr' fun k => ?_
  cases t.get? k <;> cases u.get? k <;> simp

theorem map_eq_self_iff {f : β → β} {t : Table κ β} :
    t.map f = t ↔ ∀ v ∈ t.values, f v = v := by
  simp only [mem_values_iff]
  constructor
  · rintro same v ⟨k, here⟩
    have there := congrArg (get? · k) same
    rw [get?_map, here] at there
    exact Option.some.inj there
  · intro each
    apply ext
    intro k
    rw [get?_map]
    cases here : t.get? k with
    | none => rfl
    | some v => exact congrArg some (each v ⟨k, here⟩)

end Blockwork.Table
