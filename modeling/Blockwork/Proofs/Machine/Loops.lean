import Blockwork.Proofs.Machine.Changes
import Blockwork.Proofs.Table
import Mathlib.Data.List.Nodup
import Mathlib.Data.List.Perm.Basic

/-!
# Slots and loops agree

Every loop has a number, a signal of its own and, until it is stopped, the slot of its actor.
`Registry` is the invariant: over all loops there are, signals and numbers are distinct and in use,
a loop whose signal is not raised holds its actor's slot, and a slot that is taken is held by such a
loop.  It follows that an actor has at most one loop whose signal is not raised.

## What is load-bearing

A loop that was stopped stays around until it is next due, and by then the slot may belong to a
newer loop of the actor.  It is the number that keeps the old loop from freeing it, so the invariant
speaks of all loops and not only of those that hold a slot, and it needs numbers that have not begun
anew: `Sound` asks for fewer starts than there are numbers.

While a loop makes an iteration it is on no list.  The invariant therefore takes the loops that are
out of the agenda as a parameter.
-/

namespace Blockwork

/-- A loop as the slots know it: whose it is, and its handle. -/
abbrev Token := ActorId × LoopHandle

/-- The token of a loop. -/
def LoopTask.token (t : LoopTask) : Token := (t.actor, t.handle)

namespace Machine

/-- The tokens of the loops that wait. -/
def tokens (m : Machine) : List Token := m.agenda.loops.map LoopTask.token

/-! ## What only grows -/

/-- Loops are started and signals raised, and neither is undone. -/
structure Ages (m m' : Machine) : Prop where
  /-- Starts are counted. -/
  started : m.slots.started ≤ m'.slots.started
  /-- A signal is raised for good. -/
  raised : ∀ x, m.signals.isRaised x = true → m'.signals.isRaised x = true

namespace Ages

variable {m m' m'' : Machine}

@[refl] theorem refl (m : Machine) : Ages m m := ⟨Nat.le_refl _, fun _ h => h⟩

theorem trans (h : Ages m m') (h' : Ages m' m'') : Ages m m'' :=
  ⟨Nat.le_trans h.started h'.started, fun x hx => h'.raised x (h.raised x hx)⟩

end Ages

end Machine

theorem Signals.isRaised_raise (s : Signals) (x y : Signal) :
    (s.raise x).isRaised y = (decide (y = x) || s.isRaised y) := by
  unfold raise isRaised
  split
  · next h =>
    by_cases same : y = x
    · subst same
      simpa using h
    · simp [same]
  · simp

@[simp] theorem Signals.next_raise (s : Signals) (x : Signal) : (s.raise x).next = s.next := by
  unfold raise
  split <;> rfl

/-! ## The invariant -/

/-- Slots and signals agree with the loops there are. -/
structure Registry (held : List Token) (slots : LoopSlots) (signals : Signals) : Prop where
  /-- Signals of loops have been handed out. -/
  issued : ∀ k ∈ held, k.2.signal < signals.next
  /-- Only signals that have been handed out are raised. -/
  raised : ∀ x, signals.isRaised x = true → x < signals.next
  /-- Each loop has a signal of its own. -/
  distinct : (held.map fun k => k.2.signal).Nodup
  /-- Numbers of loops have been handed out. -/
  numbered : ∀ k ∈ held, k.2.id.toNat < slots.started
  /-- Each loop has a number of its own. -/
  numbers : (held.map fun k => k.2.id).Nodup
  /-- A loop that is not stopped holds its actor's slot. -/
  holds : ∀ k ∈ held, signals.isRaised k.2.signal = false → slots.active.get? k.1 = some k.2
  /-- A slot that is taken is held by a loop that is not stopped. -/
  taken : ∀ a h, slots.active.get? a = some h → (a, h) ∈ held ∧ signals.isRaised h.signal = false

namespace Registry

variable {held held' : List Token} {slots : LoopSlots} {signals : Signals}

theorem empty : Registry [] {} {} where
  issued _ h := absurd h (List.not_mem_nil)
  raised _ h := by cases h
  distinct := .nil
  numbered _ h := absurd h (List.not_mem_nil)
  numbers := .nil
  holds _ h := absurd h (List.not_mem_nil)
  taken _ _ h := by cases h

/-- The order of the loops does not matter. -/
theorem perm (h : Registry held slots signals) (same : held.Perm held') :
    Registry held' slots signals where
  issued k hk := h.issued k (same.mem_iff.mpr hk)
  raised := h.raised
  distinct := (same.map _).nodup_iff.mp h.distinct
  numbered k hk := h.numbered k (same.mem_iff.mpr hk)
  numbers := (same.map _).nodup_iff.mp h.numbers
  holds k hk := h.holds k (same.mem_iff.mpr hk)
  taken a handle found := ⟨same.mem_iff.mp (h.taken a handle found).1, (h.taken a handle found).2⟩

theorem eq_of_signal (h : Registry held slots signals) {k l : Token} (hk : k ∈ held) (hl : l ∈ held)
    (same : k.2.signal = l.2.signal) : k = l :=
  List.inj_on_of_nodup_map h.distinct hk hl same

theorem eq_of_number (h : Registry held slots signals) {k l : Token} (hk : k ∈ held) (hl : l ∈ held)
    (same : k.2.id = l.2.id) : k = l :=
  List.inj_on_of_nodup_map h.numbers hk hl same

/-- Handing out a signal to no loop. -/
theorem fresh (h : Registry held slots signals) : Registry held slots signals.fresh.2 where
  issued k hk := Nat.lt_succ_of_lt (h.issued k hk)
  raised x hx := Nat.lt_succ_of_lt (h.raised x hx)
  distinct := h.distinct
  numbered := h.numbered
  numbers := h.numbers
  holds := h.holds
  taken := h.taken

/-- A signal that no slot waits for may be raised. -/
theorem raise (h : Registry held slots signals) {x : Signal} (issued : x < signals.next)
    (idle : ∀ a handle, slots.active.get? a = some handle → handle.signal ≠ x) :
    Registry held slots (signals.raise x) where
  issued k hk := by
    rw [Signals.next_raise]
    exact h.issued k hk
  raised y hy := by
    rw [Signals.isRaised_raise, Bool.or_eq_true, decide_eq_true_iff] at hy
    rw [Signals.next_raise]
    rcases hy with rfl | hy
    · exact issued
    · exact h.raised y hy
  distinct := h.distinct
  numbered := h.numbered
  numbers := h.numbers
  holds k hk live := by
    rw [Signals.isRaised_raise, Bool.or_eq_false_iff] at live
    exact h.holds k hk live.2
  taken a handle found := by
    refine ⟨(h.taken a handle found).1, ?_⟩
    rw [Signals.isRaised_raise, (h.taken a handle found).2, Bool.or_false, decide_eq_false_iff_not]
    exact idle a handle found

/-- Emptying a slot and raising the signal of the loop that held it. -/
theorem stop (h : Registry held slots signals) {a : ActorId} {handle : LoopHandle}
    (found : slots.active.get? a = some handle) :
    Registry held { slots with active := slots.active.erase a } (signals.raise handle.signal) := by
  obtain ⟨mem, -⟩ := h.taken a handle found
  refine ⟨fun k hk => ?_, fun y hy => ?_, h.distinct, h.numbered, h.numbers, fun k hk live => ?_,
    fun b other found' => ?_⟩
  · rw [Signals.next_raise]
    exact h.issued k hk
  · rw [Signals.isRaised_raise, Bool.or_eq_true, decide_eq_true_iff] at hy
    rw [Signals.next_raise]
    rcases hy with rfl | hy
    · exact h.issued _ mem
    · exact h.raised y hy
  · rw [Signals.isRaised_raise, Bool.or_eq_false_iff, decide_eq_false_iff_not] at live
    have before := h.holds k hk live.2
    show (slots.active.erase a).get? k.1 = _
    rw [Table.get?_erase, if_neg, before]
    -- a loop of this actor that is not stopped would be the one that is being stopped
    rintro rfl
    rw [found] at before
    exact live.1 (congrArg LoopHandle.signal (Option.some.inj before).symm)
  · change (slots.active.erase a).get? b = some other at found'
    rw [Table.get?_erase] at found'
    split at found'
    · cases found'
    · next ne =>
      obtain ⟨mem', live⟩ := h.taken b other found'
      refine ⟨mem', ?_⟩
      rw [Signals.isRaised_raise, live, Bool.or_false, decide_eq_false_iff_not]
      -- two slots never wait for one signal
      intro same
      exact ne (congrArg Prod.fst (h.eq_of_signal mem' mem same)).symm

/-- Starting a loop in a free slot, while there are numbers left. -/
theorem start (h : Registry held slots signals) {a : ActorId}
    (free : slots.active.get? a = none) (room : slots.started < UInt32.size) :
    Registry ((a, ⟨UInt32.ofNat slots.started, signals.next⟩) :: held)
      { active := slots.active.insert a ⟨UInt32.ofNat slots.started, signals.next⟩
        started := slots.started + 1 } signals.fresh.2 := by
  have number : (UInt32.ofNat slots.started).toNat = slots.started := UInt32.toNat_ofNat_of_lt room
  -- only signals that were handed out are raised, and the next one was not
  have unraised : signals.isRaised signals.next = false := by
    rw [Bool.eq_false_iff]
    intro raised
    exact Nat.lt_irrefl _ (h.raised _ raised)
  refine ⟨fun k hk => ?_, fun x hx => Nat.lt_succ_of_lt (h.raised x hx), ?_, fun k hk => ?_, ?_,
    fun k hk live => ?_, fun b other found => ?_⟩
  · rcases List.mem_cons.mp hk with rfl | hk
    · exact Nat.lt_succ_self _
    · exact Nat.lt_succ_of_lt (h.issued k hk)
  · rw [List.map_cons, List.nodup_cons]
    refine ⟨fun mem => ?_, h.distinct⟩
    obtain ⟨k, hk, same⟩ := List.mem_map.mp mem
    exact absurd (h.issued k hk) (by simp [same])
  · rcases List.mem_cons.mp hk with rfl | hk
    · show (UInt32.ofNat slots.started).toNat < slots.started + 1
      rw [number]
      exact Nat.lt_succ_self _
    · exact Nat.lt_succ_of_lt (h.numbered k hk)
  · rw [List.map_cons, List.nodup_cons]
    refine ⟨fun mem => ?_, h.numbers⟩
    obtain ⟨k, hk, same⟩ := List.mem_map.mp mem
    have below := h.numbered k hk
    -- below the last number there is no wrapping around
    rw [same, number] at below
    exact Nat.lt_irrefl _ below
  · show (slots.active.insert a _).get? k.1 = _
    rcases List.mem_cons.mp hk with rfl | hk
    · exact Table.get?_insert_self _ _ _
    · have before := h.holds k hk live
      rw [Table.get?_insert_of_ne _ _, before]
      -- the slot was free, so no loop of the actor was running
      rintro rfl
      rw [free] at before
      cases before
  · change (slots.active.insert a ⟨UInt32.ofNat slots.started, signals.next⟩).get? b = some other
      at found
    rw [Table.get?_insert] at found
    split at found
    · next same =>
      subst same
      cases found
      exact ⟨List.mem_cons_self .., unraised⟩
    · obtain ⟨mem, live⟩ := h.taken b other found
      exact ⟨List.mem_cons_of_mem _ mem, live⟩

/-- A loop that ends frees the slot if it holds it, and no other loop's. -/
theorem release {k : Token} (h : Registry (k :: held) slots signals) :
    Registry held (slots.release k.1 k.2.id) signals := by
  have mine : k ∈ k :: held := List.mem_cons_self ..
  have later {l : Token} (hl : l ∈ held) : l ∈ k :: held := List.mem_cons_of_mem _ hl
  have other {l : Token} (hl : l ∈ held) : l ≠ k := by
    rintro rfl
    have distinct := h.distinct
    rw [List.map_cons, List.nodup_cons] at distinct
    exact distinct.1 (List.mem_map_of_mem hl)
  -- The slot holds the loop exactly if it holds the loop's number.
  have slot : slots.release k.1 k.2.id =
      if slots.active.get? k.1 = some k.2 then { slots with active := slots.active.erase k.1 }
      else slots := by
    unfold LoopSlots.release
    cases found : slots.active.get? k.1 with
    | none => rfl
    | some handle =>
        by_cases number : handle.id = k.2.id
        · have same := h.eq_of_number (h.taken k.1 handle found).1 mine number
          rw [← same]
          simp
        · have differs : handle ≠ k.2 := fun same => number (congrArg LoopHandle.id same)
          simp [number, differs]
  rw [slot]
  have distinct := (List.nodup_cons.mp h.distinct).2
  have numbers := (List.nodup_cons.mp h.numbers).2
  split
  · next held_ =>
    refine ⟨fun l hl => h.issued l (later hl), h.raised, distinct, fun l hl => h.numbered l (later hl),
      numbers, fun l hl live => ?_, fun b handle found => ?_⟩
    · have before := h.holds l (later hl) live
      show (slots.active.erase k.1).get? l.1 = _
      rw [Table.get?_erase, if_neg, before]
      intro same
      rw [← same, held_] at before
      exact other hl (Prod.ext same.symm (Option.some.inj before).symm)
    · change (slots.active.erase k.1).get? b = some handle at found
      rw [Table.get?_erase] at found
      split at found
      · cases found
      · next ne =>
        obtain ⟨mem, live⟩ := h.taken b handle found
        refine ⟨(List.mem_cons.mp mem).resolve_left ?_, live⟩
        rintro rfl
        exact ne rfl
  · next free =>
    refine ⟨fun l hl => h.issued l (later hl), h.raised, distinct, fun l hl => h.numbered l (later hl),
      numbers, fun l hl live => h.holds l (later hl) live, fun b handle found => ?_⟩
    obtain ⟨mem, live⟩ := h.taken b handle found
    refine ⟨(List.mem_cons.mp mem).resolve_left ?_, live⟩
    rintro rfl
    exact free found

/-- An actor has at most one loop that is not stopped. -/
theorem eq_of_live (h : Registry held slots signals) {k l : Token} (hk : k ∈ held) (hl : l ∈ held)
    (owner : k.1 = l.1) (live : signals.isRaised k.2.signal = false)
    (live' : signals.isRaised l.2.signal = false) : k = l := by
  have first := h.holds k hk live
  have second := h.holds l hl live'
  rw [owner, second] at first
  exact Prod.ext owner (Option.some.inj first).symm

end Registry

/-! ## What runs preserve -/

namespace Machine

variable {extra : List Token} {m m' : Machine} {a : ActorId}

/-- The invariant of a machine some of whose loops are out of the agenda, as long as there are
numbers left. -/
def Sound (extra : List Token) (m : Machine) : Prop :=
  m.slots.started < UInt32.size → Registry (extra ++ m.tokens) m.slots m.signals

/-- What the invariant speaks about stays the same. -/
theorem Sound.of_eq (h : Sound extra m) (loops : m'.agenda.loops = m.agenda.loops)
    (slots : m'.slots = m.slots) (signals : m'.signals = m.signals) : Sound extra m' := by
  unfold Sound tokens
  rw [loops, slots, signals]
  exact h

/-- What taking a slot does. -/
theorem takeSlot_eq_ok {handle : LoopHandle} (h : m.takeSlot a = .ok (handle, m')) :
    m.slots.active.get? a = none ∧ handle = ⟨UInt32.ofNat m.slots.started, m.signals.next⟩ ∧
      m' = { m with
        slots := { active := m.slots.active.insert a handle, started := m.slots.started + 1 }
        signals := m.signals.fresh.2 } := by
  unfold takeSlot LoopSlots.register at h
  dsimp only at h
  split at h
  · cases h
  · next free =>
    cases h
    exact ⟨Table.contains_eq_false_iff.mp (Bool.eq_false_iff.mpr free), rfl, rfl⟩

/-- A slot that is taken stays as it is. -/
theorem takeSlot_eq_error (taken : m.slots.active.contains a = true) :
    m.takeSlot a = .error (.conflict .loopRunning) := by
  unfold takeSlot LoopSlots.register
  rw [taken]
  rfl

/-- What stopping a loop does: nothing, or emptying a slot and raising a signal. -/
theorem requestStop_cases (m : Machine) (a : ActorId) :
    (m.slots.active.get? a = none ∧ (m.requestStop a).2 = m) ∨
      ∃ handle, m.slots.active.get? a = some handle ∧ (m.requestStop a).2 = { m with
        slots := { m.slots with active := m.slots.active.erase a }
        signals := m.signals.raise handle.signal } := by
  unfold requestStop LoopSlots.remove
  cases found : m.slots.active.get? a with
  | none => exact .inl ⟨rfl, rfl⟩
  | some handle => exact .inr ⟨handle, rfl, rfl⟩

theorem ages_requestStop (m : Machine) (a : ActorId) : Ages m (m.requestStop a).2 := by
  rcases m.requestStop_cases a with ⟨-, same⟩ | ⟨handle, -, same⟩
  · rw [same]
  · rw [same]
    refine ⟨Nat.le_refl _, fun x hx => ?_⟩
    rw [Signals.isRaised_raise, hx, Bool.or_true]

theorem Sound.requestStop (h : Sound extra m) (a : ActorId) :
    Sound extra (m.requestStop a).2 := by
  rcases m.requestStop_cases a with ⟨-, same⟩ | ⟨handle, found, same⟩
  · rw [same]
    exact h
  · rw [same]
    intro few
    exact (h few).stop found

namespace Change

/-- Nothing is undone. -/
theorem ages (h : Change a m m') : Ages m m' := by
  cases h with
  | stop => exact m.ages_requestStop a
  | start task taken held own =>
      obtain ⟨-, -, rfl⟩ := takeSlot_eq_ok taken
      exact ⟨Nat.le_succ _, fun _ hx => hx⟩
  | _ => exact ⟨Nat.le_refl _, fun _ hx => hx⟩

/-- One change preserves the invariant. -/
theorem sound (h : Change a m m') (before : Sound extra m) : Sound extra m' := by
  cases h with
  | stop => exact before.requestStop a
  | start task taken held own =>
      obtain ⟨free, handle, rfl⟩ := takeSlot_eq_ok taken
      subst handle
      intro few
      have room : m.slots.started < UInt32.size := Nat.lt_of_succ_lt few
      have started := (before room).start free room
      refine started.perm ?_
      have token : task.token = (a, ⟨UInt32.ofNat m.slots.started, m.signals.next⟩) :=
        Prod.ext own held
      simp only [tokens, Agenda.addLoop, List.map_append, List.map_cons, List.map_nil, token]
      rw [← List.append_assoc]
      exact (List.perm_append_singleton _ _).symm
  | _ => exact before.of_eq rfl rfl rfl

end Change

end Machine

/-! ## From one machine to a later one -/

namespace Machine

/-- The second machine comes after the first, and the invariant carries over; in between, some loops
may have come out of the agenda and others gone. -/
structure Keeps (extra extra' : List Token) (m m' : Machine) : Prop where
  /-- Nothing is undone. -/
  ages : Ages m m'
  /-- The invariant carries over. -/
  sound : Sound extra m → Sound extra' m'

namespace Keeps

variable {extra extra' extra'' : List Token} {m m' m'' : Machine} {a : ActorId}

@[refl] theorem refl (extra : List Token) (m : Machine) : Keeps extra extra m m := ⟨.refl m, id⟩

theorem trans (h : Keeps extra extra' m m') (h' : Keeps extra' extra'' m' m'') :
    Keeps extra extra'' m m'' :=
  ⟨h.ages.trans h'.ages, fun sound => h'.sound (h.sound sound)⟩

/-- Machines with the same loops, slots and signals. -/
theorem of_eq (loops : m'.agenda.loops = m.agenda.loops) (slots : m'.slots = m.slots)
    (signals : m'.signals = m.signals) : Keeps extra extra m m' := by
  refine ⟨⟨?_, fun x hx => ?_⟩, fun before => before.of_eq loops slots signals⟩
  · exact Nat.le_of_eq (by rw [slots])
  · rw [signals]
    exact hx

theorem of_change (h : Change a m m') : Keeps extra extra m m' := ⟨h.ages, h.sound⟩

/-- **A run keeps slots and loops in agreement.** -/
theorem of_changes (h : Relation.ReflTransGen (Change a) m m') : Keeps extra extra m m' := by
  induction h with
  | refl => exact .refl extra m
  | tail _ step ih => exact ih.trans (of_change step)

theorem fresh (m : Machine) : Keeps extra extra m { m with signals := m.signals.fresh.2 } :=
  ⟨⟨Nat.le_refl _, fun _ hx => hx⟩, fun before few => (before few).fresh⟩

/-- The loops that are due come out of the agenda. -/
theorem takeLoops (m : Machine) :
    Keeps extra (m.agenda.takeLoops.1.map LoopTask.token ++ extra) m
      { m with agenda := m.agenda.takeLoops.2 } := by
  refine ⟨⟨Nat.le_refl _, fun _ hx => hx⟩, fun before few => (before few).perm ?_⟩
  have parts : (m.agenda.takeLoops.1 ++ m.agenda.takeLoops.2.loops).Perm m.agenda.loops :=
    List.filter_append_perm _ _
  unfold tokens
  calc extra ++ m.agenda.loops.map LoopTask.token
    _ |>.Perm (m.agenda.loops.map LoopTask.token ++ extra) := List.perm_append_comm
    _ |>.Perm ((m.agenda.takeLoops.1 ++ m.agenda.takeLoops.2.loops).map LoopTask.token ++ extra) :=
      (parts.symm.map _).append_right extra
    _ |>.Perm _ := by
      rw [List.map_append, List.append_assoc, List.append_assoc]
      exact List.perm_append_comm.append_left _

/-- A loop goes back to the agenda. -/
theorem addLoop {t : LoopTask} {k : Token} (same : t.token = k) (m : Machine) :
    Keeps (k :: extra) extra m { m with agenda := m.agenda.addLoop t } := by
  refine ⟨⟨Nat.le_refl _, fun _ hx => hx⟩, fun before few => (before few).perm ?_⟩
  unfold tokens Agenda.addLoop
  rw [List.map_append, List.map_singleton, same, ← List.append_assoc]
  exact (List.perm_append_singleton _ _).symm

/-- A loop ends. -/
theorem release (k : Token) (m : Machine) :
    Keeps (k :: extra) extra m { m with slots := m.slots.release k.1 k.2.id } := by
  have same : (m.slots.release k.1 k.2.id).started = m.slots.started := by
    unfold LoopSlots.release
    split
    · split <;> rfl
    · rfl
  refine ⟨⟨Nat.le_of_eq same.symm, fun _ hx => hx⟩, fun before few => ?_⟩
  have few : (m.slots.release k.1 k.2.id).started < UInt32.size := few
  rw [same] at few
  exact (before few).release

/-- Raising signals of loops whose actor has no slot. -/
theorem raiseAll (free : m.slots.active.get? a = none) {own : List LoopTask}
    (mine : ∀ t ∈ own, t ∈ m.agenda.loops ∧ t.actor = a) :
    Keeps extra extra m
      { m with signals := own.foldl (fun s t => s.raise t.handle.signal) m.signals } := by
  induction own generalizing m with
  | nil => exact .refl extra m
  | cons t own ih =>
      obtain ⟨mem, owner⟩ := mine t (List.mem_cons_self ..)
      have first : Keeps extra extra m { m with signals := m.signals.raise t.handle.signal } := by
        refine ⟨⟨Nat.le_refl _, fun x hx => ?_⟩, fun before few => ?_⟩
        · rw [Signals.isRaised_raise, hx, Bool.or_true]
        · have held : t.token ∈ extra ++ m.tokens :=
            List.mem_append_right _ (List.mem_map_of_mem mem)
          refine (before few).raise ((before few).issued _ held) fun b handle found same => ?_
          -- whoever waits for the signal is this loop, and its actor has no slot
          have entry := (before few).eq_of_signal ((before few).taken b handle found).1 held same
          have : b = a := (congrArg Prod.fst entry).trans owner
          rw [this, free] at found
          cases found
      exact first.trans (ih free fun t ht => mine t (List.mem_cons_of_mem _ ht))

/-- An actor departs. -/
theorem depart (m : Machine) (a : ActorId) :
    Keeps extra extra m ((m.requestStop a).2.cancelActor a) := by
  have stopped : Keeps extra extra m (m.requestStop a).2 := of_change (.stop m)
  have free : (m.requestStop a).2.slots.active.get? a = none := by
    rcases m.requestStop_cases a with ⟨free, same⟩ | ⟨handle, -, same⟩
    · rw [same]
      exact free
    · rw [same]
      show (m.slots.active.erase a).get? a = none
      rw [Table.get?_erase, if_pos rfl]
  have mine : ∀ t ∈ (m.requestStop a).2.agenda.loops.filter fun t => t.actor == a,
      t ∈ (m.requestStop a).2.agenda.loops ∧ t.actor = a := by
    intro t ht
    rw [List.mem_filter] at ht
    exact ⟨ht.1, eq_of_beq ht.2⟩
  exact (stopped.trans (raiseAll free mine)).trans (.of_eq rfl rfl rfl)

end Keeps

end Machine

end Blockwork
