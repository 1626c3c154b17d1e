import Blockwork.Handlers

/-!
# Handlers by owner

Registering a script touches the handlers of one owner only, the one that the script names, and
what that owner has afterwards depends on the lines of the script alone, the numbers of the
handlers apart.
-/

namespace Blockwork.Handlers

/-- The handlers of an owner, each with the kind of event it waits for. -/
def entriesOf (h : Handlers) (owner : ActorId) : List (EventKind × Handler) :=
  h.entries.filter fun e => e.2.owner == owner

theorem entriesOf_unregister_self (h : Handlers) (owner : ActorId) :
    (h.unregister owner).entriesOf owner = [] := by
  rw [entriesOf, unregister, List.filter_filter, List.filter_eq_nil_iff]
  intro e _
  simp

theorem entriesOf_unregister_of_ne (h : Handlers) {owner other : ActorId} (ne : owner ≠ other) :
    (h.unregister owner).entriesOf other = h.entriesOf other := by
  rw [entriesOf, unregister, List.filter_filter, entriesOf]
  refine List.filter_congr fun e _ => ?_
  by_cases mine : e.2.owner = other
  · simp [mine, Ne.symm ne]
  · simp [mine]

theorem entriesOf_addLines_of_ne {owner other : ActorId} (ne : owner ≠ other) (index : Nat)
    (lines : List Line) (h : Handlers) :
    (addLines owner index lines h).entriesOf other = h.entriesOf other := by
  induction lines generalizing index h with
  | nil => rfl
  | cons l rest ih =>
      rw [addLines]
      split
      · rw [ih]
        simp [entriesOf, ne]
      · exact ih _ _

/-- The handlers of everyone else stay. -/
theorem entriesOf_register_of_ne (h : Handlers) (s : Script) {other : ActorId}
    (ne : s.ownerId ≠ other) : (h.register s).entriesOf other = h.entriesOf other := by
  rw [register, entriesOf_addLines_of_ne ne, entriesOf_unregister_of_ne h ne]

theorem length_entriesOf_addLines (owner : ActorId) (index : Nat) (lines : List Line)
    (h : Handlers) :
    ((addLines owner index lines h).entriesOf owner).length =
      (h.entriesOf owner).length + lines.countP fun l => l.eventKind.isSome := by
  induction lines generalizing index h with
  | nil => rfl
  | cons l rest ih =>
      rw [addLines]
      cases kind : l.eventKind with
      | none => simpa [kind] using ih (index + 1) h
      | some k =>
          rw [ih]
          simp [entriesOf, kind]
          omega

/-- The owner has one handler for each line that starts with an event. -/
theorem length_entriesOf_register (h : Handlers) (s : Script) :
    ((h.register s).entriesOf s.ownerId).length = s.lines.countP fun l => l.eventKind.isSome := by
  rw [register, length_entriesOf_addLines, entriesOf_unregister_self, List.length_nil, Nat.zero_add]

/-- The handlers that an event starts are those of the acting actor. -/
theorem owner_of_mem_matching {h : Handlers} {e : Event} {handler : Handler}
    (mem : handler ∈ h.matching e) : handler.owner = e.actor := by
  rw [matching, List.mem_filter] at mem
  exact eq_of_beq mem.2

end Blockwork.Handlers
