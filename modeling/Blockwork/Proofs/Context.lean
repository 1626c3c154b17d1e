import Blockwork.Context
import Blockwork.Proofs.Table

/-!
# Snapshots and commits

A run sees the globals of its script through a snapshot and changes them through a commit.  A global
that is stored, read and stored again is the same (`toScalar_ofScalar`), so a variable that a run does
not write is committed as it was, and every other one in the form in which its last value is stored
(`get?_commit`).  Transient variables take no part in a commit.

Nobody who reads variables notices where they are kept.  What look-ups find decides what a caller takes
over from a call (`get?_mergeBack`) and what is committed (`commit_eq_of_get?`), and it is unchanged by a
commit with a new snapshot if the overlay is plain (`get?_refresh_commit`).
-/

namespace Blockwork

namespace Datum

mutual

/-- The value of a stored form is stored in that form. -/
@[simp] theorem toScalar_ofScalar : ∀ s : Scalar, toScalar (ofScalar s) = s
  | .boolean b => rfl
  | .number x => rfl
  | .text s => rfl
  | .list items => by rw [ofScalar, toScalar, toScalars_ofScalars items]

@[simp] theorem toScalars_ofScalars : ∀ l : List Scalar, toScalars (ofScalars l) = l
  | [] => rfl
  | s :: rest => by rw [ofScalars, toScalars, toScalar_ofScalar s, toScalars_ofScalars rest]

end

mutual

/-- Whether a value is stored as it is: a truth value, a number, a text or a list of such values. -/
def isPlain : Datum → Bool
  | .boolean _ | .number _ | .text _ => true
  | .list items => areAllPlain items
  | _ => false

/-- Whether all items of a list are stored as they are. -/
def areAllPlain : List Datum → Bool
  | [] => true
  | d :: rest => isPlain d && areAllPlain rest

end

mutual

/-- A value that is stored as it is comes back as it was. -/
theorem ofScalar_toScalar : ∀ {d : Datum}, d.isPlain = true → ofScalar (toScalar d) = d
  | .boolean b, _ => rfl
  | .number x, _ => rfl
  | .text s, _ => rfl
  | .list items, plain => by
      rw [isPlain] at plain
      rw [toScalar, ofScalar, ofScalars_toScalars plain]

theorem ofScalars_toScalars : ∀ {l : List Datum}, areAllPlain l = true → ofScalars (toScalars l) = l
  | [], _ => rfl
  | d :: rest, plain => by
      rw [areAllPlain, Bool.and_eq_true] at plain
      rw [toScalars, ofScalars, ofScalar_toScalar plain.1, ofScalars_toScalars plain.2]

end

end Datum

theorem get?_snapshot (globals : Table String Scalar) (n : String) :
    (snapshot globals).get? n = (globals.get? n).map Datum.ofScalar :=
  Table.get?_map globals Datum.ofScalar n

namespace Context

variable {n : String}

/-- A variable without a place in the overlay is read from the snapshot. -/
theorem get?_of_locals {c : Context} (h : c.scope.locals.get? n = none) :
    c.get? n = c.frame.globals.get? n := by
  unfold get?
  rw [h]

/-! ## Writing -/

/-- The overlay comes before the snapshot. -/
theorem get?_eq_getD (c : Context) (n : String) :
    c.get? n = (c.scope.locals.get? n).getD (c.frame.globals.get? n) := by
  unfold get?
  cases c.scope.locals.get? n <;> rfl

theorem get?_set (c : Context) (name : String) (d : Datum) :
    (c.set name d).get? = fun a => if name = a then some d else c.get? a := by
  funext a
  rw [get?_eq_getD, get?_eq_getD, set, Scope.set, Table.get?_insert]
  split <;> rfl

theorem get?_clear (c : Context) (name : String) :
    (c.clear name).get? = fun a => if name = a then none else c.get? a := by
  funext a
  rw [get?_eq_getD, get?_eq_getD, clear, Scope.clear, Table.get?_insert]
  split <;> rfl

/-! ## Calls -/

/-- Whether a variable has a value before and after a call, and the same one. -/
def isKept (caller callee : String → Option Datum) (name : String) : Bool :=
  match caller name, callee name with
  | some old, some d => old == d
  | _, _ => false

/-- What a variable of the caller has become when a call ends. -/
def merged (caller callee : String → Option Datum) (name : String) : Option Datum :=
  if (caller name).isNone || isKept caller callee name then caller name else callee name

/-- The names that are visible are those that have a value. -/
theorem mem_visibleNames_iff {c : Context} : n ∈ c.visibleNames ↔ (c.get? n).isSome = true := by
  have overlay : (∃ entry ∈ c.scope.locals.toList, (entry.2.map fun _ => entry.1) = some n) ↔
      ∃ d, c.scope.locals.get? n = some (some d) := by
    simp only [Prod.exists, Option.map_eq_some_iff, Table.mem_toList_iff]
    constructor
    · rintro ⟨_, _, found, d, rfl, rfl⟩
      exact ⟨d, found⟩
    · rintro ⟨d, found⟩
      exact ⟨n, some d, found, d, rfl, rfl⟩
  have below : n ∈ c.frame.globals.keys ↔ (c.frame.globals.get? n).isSome = true := by
    rw [Option.isSome_iff_ne_none, ne_eq, Table.get?, Table.find_eq_none_iff, not_not]
    rfl
  have parts : n ∈ c.visibleNames ↔ (∃ d, c.scope.locals.get? n = some (some d)) ∨
      n ∈ c.frame.globals.keys.filter fun name => !c.scope.locals.contains name := by
    rw [visibleNames, List.mem_append, List.mem_filterMap]
    exact or_congr_left overlay
  rw [parts, List.mem_filter, below, get?_eq_getD]
  cases own : c.scope.locals.get? n with
  | none => simp [Table.contains_eq_false_iff.mpr own]
  | some value => cases value <;> simp [Table.contains_iff.mpr ⟨_, own⟩]

theorem mergeName_eq (caller callee : Context) (locals : Table String (Option Datum))
    (name : String) : mergeName caller callee locals name =
      if isKept caller.get? callee.get? name then locals
      else locals.insert name (callee.get? name) := by
  unfold mergeName isKept
  cases callee.get? name <;> cases caller.get? name <;> simp

theorem get?_foldl_mergeName (caller callee : Context) (names : List String)
    (locals : Table String (Option Datum)) : (names.foldl (mergeName caller callee) locals).get? n =
      if n ∈ names ∧ isKept caller.get? callee.get? n = false then some (callee.get? n)
      else locals.get? n := by
  induction names generalizing locals with
  | nil => simp
  | cons name names ih =>
      rw [List.foldl_cons, ih, mergeName_eq]
      by_cases same : name = n
      · subst same
        cases isKept caller.get? callee.get? name <;> simp
      · have other : (if isKept caller.get? callee.get? name then locals
            else locals.insert name (callee.get? name)).get? n = locals.get? n := by
          split
          · rfl
          · exact Table.get?_insert_of_ne _ _ same
        rw [other]
        simp only [List.mem_cons, Ne.symm same, false_or]

/-- A variable that had a value before a call has afterwards what it has become in the call, and one
that had none still has none. -/
theorem get?_mergeBack (caller callee : Context) :
    (caller.mergeBack callee).get? = merged caller.get? callee.get? := by
  funext n
  rw [get?_eq_getD, mergeBack, get?_foldl_mergeName, merged]
  simp only [mem_visibleNames_iff]
  have before := caller.get?_eq_getD n
  cases found : caller.get? n with
  | none => simp [← before, found]
  | some old => cases isKept caller.get? callee.get? n <;> simp [← before, found]

/-! ## Commits -/

/-- An entry of the overlay is committed at its own name and nowhere else. -/
theorem get?_commitEntry_of_ne (globals : Table String Scalar) {entry : String × Option Datum}
    (h : entry.1 ≠ n) : (commitEntry globals entry).get? n = globals.get? n := by
  unfold commitEntry
  split
  · rfl
  split
  · exact Table.get?_insert_of_ne _ _ h
  · rw [Table.get?_erase, if_neg h]

theorem get?_commitEntry_self (globals : Table String Scalar) (own : Option Datum)
    (lasting : isTransient n = false) :
    (commitEntry globals (n, own)).get? n = own.map Datum.toScalar := by
  cases own with
  | some d => simp [commitEntry, lasting]
  | none => simp [commitEntry, lasting, Table.get?_erase]

theorem get?_foldl_commitEntry {entries : List (String × Option Datum)}
    (nodup : (entries.map Prod.fst).Nodup) (lasting : isTransient n = false)
    (globals : Table String Scalar) :
    (entries.foldl commitEntry globals).get? n =
      (Table.find n entries).elim (globals.get? n) (Option.map Datum.toScalar) := by
  induction entries generalizing globals with
  | nil => rfl
  | cons e rest ih =>
      rw [List.map_cons, List.nodup_cons] at nodup
      rw [List.foldl_cons, ih nodup.2, Table.find]
      by_cases same : e.1 = n
      · subst same
        -- the entries that follow are for other names
        rw [if_pos rfl, Table.find_eq_none_iff.mpr nodup.1]
        exact get?_commitEntry_self globals e.2 lasting
      · rw [if_neg same, get?_commitEntry_of_ne globals same]

/-- A variable of the overlay is committed in the form in which its value is stored. -/
theorem get?_commit (c : Context) (globals : Table String Scalar) (lasting : isTransient n = false) :
    (c.commit globals).get? n =
      (c.scope.locals.get? n).elim (globals.get? n) (Option.map Datum.toScalar) :=
  get?_foldl_commitEntry (Table.nodup_keys c.scope.locals.ascending) lasting globals

/-- Over a snapshot of the globals, a commit stores what every variable has become. -/
theorem get?_commit_snapshot {c : Context} {globals : Table String Scalar}
    (under : c.frame.globals = snapshot globals) (lasting : isTransient n = false) :
    (c.commit globals).get? n = (c.get? n).map Datum.toScalar := by
  rw [get?_commit c globals lasting]
  unfold get?
  cases c.scope.locals.get? n with
  | some own => rfl
  | none =>
      show globals.get? n = (c.frame.globals.get? n).map Datum.toScalar
      rw [under, get?_snapshot, Option.map_map]
      cases globals.get? n with
      | none => rfl
      | some s => exact congrArg some (Datum.toScalar_ofScalar s).symm

/-- A transient variable is not committed. -/
theorem get?_commit_transient (c : Context) (globals : Table String Scalar)
    (transient : isTransient n = true) : (c.commit globals).get? n = globals.get? n := by
  have each (entries : List (String × Option Datum)) (globals : Table String Scalar) :
      (entries.foldl commitEntry globals).get? n = globals.get? n := by
    induction entries generalizing globals with
    | nil => rfl
    | cons e rest ih =>
        rw [List.foldl_cons, ih]
        by_cases same : e.1 = n
        · subst same
          rw [commitEntry, if_pos transient]
        · exact get?_commitEntry_of_ne globals same
  exact each _ globals

/-- What is committed to the globals below depends on what look-ups find, wherever they find it. -/
theorem commit_eq_of_get? {c c' : Context} {globals globals' : Table String Scalar}
    (under : c.frame.globals = snapshot globals) (under' : c'.frame.globals = snapshot globals')
    (same : c.get? = c'.get?)
    (kept : ∀ n, isTransient n = true → globals.get? n = globals'.get? n) :
    c.commit globals = c'.commit globals' := by
  refine Table.ext fun n => ?_
  cases kind : isTransient n with
  | true =>
      rw [get?_commit_transient c globals kind, get?_commit_transient c' globals' kind, kept n kind]
  | false => rw [get?_commit_snapshot under kind, get?_commit_snapshot under' kind, same]

/-! ## Refreshing -/

/-- Refreshing takes every variable that is not transient out of the overlay. -/
theorem refresh_locals (c : Context) (globals : Table String Scalar)
    (lasting : isTransient n = false) :
    (c.refresh globals).scope.locals.get? n = none := by
  show (c.scope.locals.filter fun name _ => isTransient name).get? n = none
  rw [Table.get?_filter, lasting]
  rfl

/-- Every lasting variable of the overlay is cleared or holds a value that is stored as it is. -/
def IsPlain (c : Context) : Prop :=
  ∀ n d, isTransient n = false → c.scope.locals.get? n = some (some d) → d.isPlain = true

theorem isPlain_iff_toList {c : Context} : (c.scope.locals.toList.all fun entry =>
    isTransient entry.1 || entry.2.all Datum.isPlain) = true ↔ c.IsPlain := by
  simp only [List.all_eq_true, Prod.forall, Table.mem_toList_iff, Bool.or_eq_true]
  constructor
  · intro all n d lasting found
    simpa [lasting] using all n (some d) found
  · intro plain n own found
    cases kind : isTransient n with
    | true => exact .inl rfl
    | false =>
        cases own with
        | none => exact .inr rfl
        | some d => exact .inr (plain n d kind found)

instance (c : Context) : Decidable c.IsPlain := decidable_of_iff _ isPlain_iff_toList

/-- Storing plain variables and taking a new snapshot is not noticed by anyone who reads them. -/
theorem get?_refresh_commit {c : Context} {globals : Table String Scalar}
    (under : c.frame.globals = snapshot globals) (plain : c.IsPlain) :
    (c.refresh (c.commit globals)).get? = c.get? := by
  funext n
  cases kind : isTransient n with
  | true =>
      -- the overlay keeps the variable, and what is below it has not been committed to
      have own : (c.refresh (c.commit globals)).scope.locals.get? n = c.scope.locals.get? n := by
        show (c.scope.locals.filter fun name _ => isTransient name).get? n = _
        rw [Table.get?_filter, kind]
        rfl
      have below : (c.refresh (c.commit globals)).frame.globals.get? n = c.frame.globals.get? n := by
        show (snapshot (c.commit globals)).get? n = _
        rw [under, get?_snapshot, get?_snapshot, get?_commit_transient c globals kind]
      rw [get?_eq_getD, get?_eq_getD, own, below]
  | false =>
      rw [get?_of_locals (refresh_locals c _ kind)]
      show (snapshot (c.commit globals)).get? n = _
      rw [get?_snapshot, get?_commit_snapshot under kind, Option.map_map, get?_eq_getD]
      cases own : c.scope.locals.get? n with
      | none =>
          rw [Option.getD_none, under, get?_snapshot, Option.map_map]
          cases globals.get? n with
          | none => rfl
          | some s => exact congrArg (some ∘ Datum.ofScalar) (Datum.toScalar_ofScalar s)
      | some value =>
          cases value with
          | none => rfl
          | some d => exact congrArg some (Datum.ofScalar_toScalar (plain n d kind own))

end Context

end Blockwork
