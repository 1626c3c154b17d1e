import Blockwork.Proofs.Decimal.Order
import Blockwork.Proofs.Scene
import Blockwork.Proofs.World
import Mathlib

/-!
# The nearest subject

A search around an actor goes through the candidates in the order of the world and keeps the nearest
one so far.  What it finds does not depend on that order: a candidate that passes the test of the search
such that no other that passes is nearer, and none that is as near has a lesser name or number (`IsNearest`),
and with it the subject.

The test compares the square of the distance with the square of the radius (`Location.Passes`).  It is meant
for a distance within the radius (`Location.Reaches`), and it is not the same.  A negative radius has the square
of its opposite, and squares that are too large for a double are all equal.  So the search keeps to its radius
exactly if something is in reach whenever something passes (`Scene.findTarget_nearest`).

## What is load-bearing

* The comparison of distances is no order, since what is not a number is equal to every distance.  But
  such distances do not pass, because they are not at most the radius, and among numbers distances
  are compared by rank.  So a search takes the least element of a linear order, `List.argmin`
  (`leastBy_eq_argmin`), whatever the order of the candidates is.
* Nearest candidates have the same key (`IsNearest.key_eq`).  So the subject is determined as soon as the
  key determines it, as a name does where names are distinct.
* A nearest candidate of those that pass is in reach if any candidate is (`IsNearest.reaches`).
-/

namespace Blockwork

/-! ## The least of a list -/

/-- Where a comparison is that of a linear order, the least element is the one of that order that comes
first in the list. -/
theorem leastBy_eq_argmin {α β : Type} [LinearOrder β] {before : α → α → Bool} {f : α → β} {l : List α}
    (order : ∀ a ∈ l, ∀ b ∈ l, before a b = true ↔ f a < f b) : leastBy before l = l.argmin f := by
  have go (best : α) (rest : List α)
      (order : ∀ a ∈ best :: rest, ∀ b ∈ best :: rest, before a b = true ↔ f a < f b) :
      some (rest.foldl (fun best b => if before b best then b else best) best) =
        rest.foldl (List.argAux fun b c => f b < f c) (some best) := by
    induction rest generalizing best with
    | nil => rfl
    | cons b rest ih =>
        have first := order b (by simp) best (by simp)
        rw [List.foldl_cons, List.foldl_cons, List.argAux]
        by_cases nearer : f b < f best
        · rw [if_pos (first.mpr nearer)]
          simp only [nearer, if_true]
          exact ih b fun a ha c hc => order a (.tail _ ha) c (.tail _ hc)
        · rw [if_neg (mt first.mp nearer)]
          simp only [nearer, if_false]
          refine ih best fun a ha c hc => order a ?_ c ?_
          · exact List.mem_cons.mpr ((List.mem_cons.mp ha).imp_right (.tail _))
          · exact List.mem_cons.mpr ((List.mem_cons.mp hc).imp_right (.tail _))
  cases l with
  | nil => rfl
  | cons a rest => exact go a rest order

/-- The place of a candidate in the order of a search: its distance first, then its key. -/
def searchRank {κ : Type} (a : Float × κ) : (ℤ ×ₗ ℤ ×ₗ ℤ) ×ₗ κ := toLex (Binary.rank a.1, a.2)

variable {α κ : Type} [LinearOrder κ]

/-- Candidates whose distances are numbers are compared by rank. -/
theorem nearerBy_iff {a b : Float × κ} (ha : Binary.IsNumber a.1) (hb : Binary.IsNumber b.1) :
    nearerBy a b = true ↔ searchRank a < searchRank b := by
  have less (x y : Float) (hx : Binary.IsNumber x) (hy : Binary.IsNumber y) :
      x < y ↔ Binary.rank x < Binary.rank y := by simp [Binary.lt_iff, hx, hy]
  rw [searchRank, searchRank, Prod.Lex.toLex_lt_toLex, nearerBy, compareNumbers]
  simp only [less _ _ ha hb, less _ _ hb ha]
  rcases lt_trichotomy (Binary.rank a.1) (Binary.rank b.1) with nearer | same | farther
  · simp [nearer]
  · simp [same]
  · simp [farther, farther.not_gt, farther.ne']

/-! ## Distance and reach -/

namespace Location

/-- The square of the distance between the points of two places, as it is rounded. -/
def square (a b : Location) : Float :=
  Binary.fusedMulAdd (a.z - b.z) (a.z - b.z)
    (Binary.fusedMulAdd (a.x - b.x) (a.x - b.x) ((a.y - b.y) * (a.y - b.y)))

/-- The test of a search: the same world, and no greater square than that of the radius. -/
structure Passes (center : Location) (radius : Float) (l : Location) : Prop where
  /-- It is in the same world. -/
  world : l.world = center.world
  /-- The squares are in order. -/
  near : center.square l ≤ radius * radius

/-- What the test is meant for: a place is no farther than the radius. -/
structure Reaches (center : Location) (radius : Float) (l : Location) : Prop extends
    Passes center radius l where
  /-- Nothing is nearer than at no distance. -/
  positive : 0 ≤ radius
  /-- An infinite square is a distance within an infinite radius only. -/
  finite : center.square l < Float.inf ∨ radius = Float.inf

variable {center l : Location} {radius : Float}

theorem distanceSquared_eq_some_iff {d : Float} :
    center.distanceSquared l = some d ↔ l.world = center.world ∧ center.square l = d := by
  unfold distanceSquared
  split
  · next same => simp [same, square]
  · next other => simp [Ne.symm other]

theorem within_iff : center.within l radius = true ↔ center.Passes radius l := by
  unfold within
  cases there : center.distanceSquared l with
  | none =>
      refine ⟨nofun, fun passes => ?_⟩
      rw [distanceSquared_eq_some_iff.mpr ⟨passes.world, rfl⟩] at there
      cases there
  | some d =>
      obtain ⟨same, rfl⟩ := distanceSquared_eq_some_iff.mp there
      simp only [decide_eq_true_iff]
      exact ⟨fun near => ⟨same, near⟩, Passes.near⟩

/-- With a radius that is not negative and has a square, what passes is in reach. -/
theorem Passes.reaches (h : center.Passes radius l) (positive : 0 ≤ radius)
    (finite : radius * radius < Float.inf) : center.Reaches radius l :=
  { h with positive, finite := .inl (Binary.lt_of_le_of_lt h.near finite) }

end Location

/-! ## Nearest candidates -/

/-- A candidate that qualifies such that no other that does is nearer to a place, and none that is as near has
a lesser key. -/
structure IsNearest (center : Location) (qualifies : Location → Prop) (place : α → Location) (key : α → κ)
    (candidates : List α) (a : α) : Prop where
  /-- It is one of the candidates. -/
  candidate : a ∈ candidates
  /-- It qualifies. -/
  qualified : qualifies (place a)
  /-- Nothing comes before it. -/
  least : ∀ b ∈ candidates, qualifies (place b) → center.square (place a) ≤ center.square (place b) ∧
    (center.square (place b) ≤ center.square (place a) → key a ≤ key b)

namespace IsNearest

variable {center : Location} {qualifies : Location → Prop} {radius : Float} {place : α → Location}
  {key : α → κ} {candidates : List α} {a b : α}

/-- Nearest candidates have the same key. -/
theorem key_eq (ha : IsNearest center qualifies place key candidates a)
    (hb : IsNearest center qualifies place key candidates b) : key a = key b := by
  obtain ⟨less, first⟩ := ha.least b hb.candidate hb.qualified
  obtain ⟨less', first'⟩ := hb.least a ha.candidate ha.qualified
  exact le_antisymm (first less') (first' less)

theorem of_perm {reordered : List α} (h : IsNearest center qualifies place key candidates a)
    (perm : reordered.Perm candidates) : IsNearest center qualifies place key reordered a :=
  { h with
    candidate := perm.mem_iff.mpr h.candidate
    least := fun b hb => h.least b (perm.mem_iff.mp hb) }

/-- If anything is in reach, so is the nearest of what passes. -/
theorem reaches (h : IsNearest center (center.Passes radius) place key candidates a) (hb : b ∈ candidates)
    (reached : center.Reaches radius (place b)) : center.Reaches radius (place a) :=
  { h.qualified with
    positive := reached.positive
    finite := reached.finite.imp_left (Binary.lt_of_le_of_lt (h.least b hb reached.toPasses).1) }

/-- The nearest of what passes is the nearest in reach, if it is in reach. -/
theorem of_reaches (h : IsNearest center (center.Passes radius) place key candidates a)
    (reached : center.Reaches radius (place a)) :
    IsNearest center (center.Reaches radius) place key candidates a :=
  ⟨h.candidate, reached, fun b hb reached => h.least b hb reached.toPasses⟩

end IsNearest

/-- A search that has every candidate that passes, with its distance and key, finds a nearest one of them,
unless there is none. -/
theorem leastBy_nearerBy {γ : Type} {center : Location} {radius : Float} {place : α → Location}
    {key : α → κ} {subject : α → γ} {candidates : List α} {around : List ((Float × κ) × γ)}
    (mem : ∀ x, x ∈ around ↔ ∃ a ∈ candidates, center.Passes radius (place a) ∧
      x = ((center.square (place a), key a), subject a)) :
    match leastBy (fun a b => nearerBy a.1 b.1) around with
    | none => ∀ a ∈ candidates, ¬ center.Passes radius (place a)
    | some x => ∃ a, IsNearest center (center.Passes radius) place key candidates a ∧ x.2 = subject a := by
  have number {x : (Float × κ) × γ} (inside : x ∈ around) : Binary.IsNumber x.1.1 := by
    obtain ⟨a, -, passes, rfl⟩ := (mem x).mp inside
    exact (Binary.le_iff.mp passes.near).1
  have least : leastBy (fun a b => nearerBy a.1 b.1) around = around.argmin fun x => searchRank x.1 :=
    leastBy_eq_argmin fun x hx y hy => nearerBy_iff (number hx) (number hy)
  rw [least]
  cases found : around.argmin fun x => searchRank x.1 with
  | none =>
      rw [List.argmin_eq_none] at found
      intro a candidate passes
      have inside := (mem _).mpr ⟨a, candidate, passes, rfl⟩
      rw [found] at inside
      cases inside
  | some x =>
      obtain ⟨a, candidate, passes, rfl⟩ := (mem x).mp (List.argmin_mem found)
      refine ⟨a, ⟨candidate, passes, fun b other passes' => ?_⟩, rfl⟩
      have inside := (mem _).mpr ⟨b, other, passes', rfl⟩
      have first := List.le_of_mem_argmin inside found
      rw [searchRank, searchRank, Prod.Lex.toLex_le_toLex] at first
      refine ⟨Binary.le_iff.mpr ⟨(Binary.le_iff.mp passes.near).1, (Binary.le_iff.mp passes'.near).1,
        first.elim le_of_lt fun same => same.1.le⟩, fun back => ?_⟩
      exact (first.resolve_left (Binary.le_iff.mp back).2.2.not_gt).2

/-- What a search for the nearest candidate finds: nobody if none qualifies, and else what a nearest one
stands for. -/
inductive FindsNearest (center : Location) (qualifies : Location → Prop) (place : α → Location) (key : α → κ)
    (candidates : List α) (subject : α → Target) : Target → Prop
  /-- No candidate qualifies. -/
  | nothing (alone : ∀ a ∈ candidates, ¬ qualifies (place a)) :
      FindsNearest center qualifies place key candidates subject .nobody
  /-- A candidate is nearest. -/
  | found {a : α} (nearest : IsNearest center qualifies place key candidates a) :
      FindsNearest center qualifies place key candidates subject (subject a)

namespace FindsNearest

variable {center : Location} {qualifies : Location → Prop} {radius : Float} {place : α → Location}
  {key : α → κ} {candidates reordered : List α} {subject : α → Target} {x y : Target}

/-- **The order of the candidates does not matter** where the key determines the subject. -/
theorem eq_of_perm (hx : FindsNearest center qualifies place key candidates subject x)
    (hy : FindsNearest center qualifies place key reordered subject y) (perm : reordered.Perm candidates)
    (determines : ∀ a ∈ candidates, ∀ b ∈ candidates, key a = key b → subject a = subject b) : y = x := by
  cases hx with
  | nothing alone =>
      cases hy with
      | nothing => rfl
      | found nearest => exact absurd nearest.qualified (alone _ (perm.mem_iff.mp nearest.candidate))
  | found nearest =>
      cases hy with
      | nothing alone => exact absurd nearest.qualified (alone _ (perm.mem_iff.mpr nearest.candidate))
      | found nearest' =>
          have nearest' := nearest'.of_perm perm.symm
          exact determines _ nearest'.candidate _ nearest.candidate (nearest'.key_eq nearest)

/-- The subject of a search is what the least of the candidates that pass stands for. -/
theorem of_around {γ : Type} {around : List ((Float × κ) × γ)} {of : α → γ} {stands : γ → Target}
    (mem : ∀ x, x ∈ around ↔ ∃ a ∈ candidates, center.Passes radius (place a) ∧
      x = ((center.square (place a), key a), of a))
    (none : leastBy (fun a b => nearerBy a.1 b.1) around = none → x = .nobody)
    (some : ∀ c, leastBy (fun a b => nearerBy a.1 b.1) around = some c → x = stands c.2) :
    FindsNearest center (center.Passes radius) place key candidates (fun a => stands (of a)) x := by
  have least := leastBy_nearerBy mem
  cases found : leastBy (fun a b => nearerBy a.1 b.1) around with
  | none =>
      rw [found] at least
      rw [none found]
      exact .nothing least
  | some c =>
      rw [found] at least
      obtain ⟨a, nearest, same⟩ := least
      rw [some c found, same]
      exact .found nearest

/-- **When a search keeps to its radius**: exactly if something is in reach whenever something passes. -/
theorem reaches_iff (h : FindsNearest center (center.Passes radius) place key candidates subject x)
    (somebody : ∀ a, subject a ≠ .nobody) :
    FindsNearest center (center.Reaches radius) place key candidates subject x ↔
      ((∃ a ∈ candidates, center.Passes radius (place a)) →
        ∃ a ∈ candidates, center.Reaches radius (place a)) := by
  cases h with
  | nothing alone =>
      refine ⟨fun _ ⟨a, ha, passes⟩ => absurd passes (alone a ha), fun _ => .nothing fun a ha reached => ?_⟩
      exact alone a ha reached.toPasses
  | @found a nearest =>
      constructor
      · generalize same : subject a = y
        rintro (_ | ⟨inReach⟩) -
        · exact absurd same (somebody a)
        · exact ⟨_, inReach.candidate, inReach.qualified⟩
      · intro reach
        obtain ⟨b, hb, reached⟩ := reach ⟨a, nearest.candidate, nearest.qualified⟩
        exact .found (nearest.of_reaches (nearest.reaches hb reached))

end FindsNearest

/-! ## What a target block finds -/

namespace Scene

variable {s : Scene} {t : Targeting} {dice : Dice}

/-- The answers of a search around the acting actor: nobody if the actor is not online, a failure if the
radius cannot be worked out, and else what the search finds among the candidates that qualify. -/
def AnswersNearest (s : Scene) (t : Targeting) (qualifies : Location → Float → Location → Prop)
    (place : α → Location) (key : α → κ) (candidates : Actor → List α) (subject : α → Target)
    (x : Attempt Target) : Prop :=
  match s.world.actor? s.context.frame.actor, s.radius t with
  | none, _ => x = .ok .nobody
  | some _, .error e => x = .error e
  | some me, .ok radius =>
    ∃ y, x = .ok y ∧
      FindsNearest me.location (qualifies me.location radius) place key (candidates me) subject y

/-- Whenever a candidate passes the test of a search, one is in reach. -/
def KeepsToRadius (s : Scene) (t : Targeting) (place : α → Location) (candidates : Actor → List α) : Prop :=
  ∀ me radius, s.world.actor? s.context.frame.actor = some me → s.radius t = .ok radius →
    (∃ a ∈ candidates me, me.location.Passes radius (place a)) →
      ∃ a ∈ candidates me, me.location.Reaches radius (place a)

/-- So it is if the radius is not negative and has a square. -/
theorem keepsToRadius_of_radius (radius : ∀ r, s.radius t = .ok r → 0 ≤ r ∧ r * r < Float.inf)
    (place : α → Location) (candidates : Actor → List α) : s.KeepsToRadius t place candidates := by
  rintro me r - given ⟨a, ha, passes⟩
  obtain ⟨positive, finite⟩ := radius r given
  exact ⟨a, ha, passes.reaches positive finite⟩

/-- The answer to a search that goes by its test is the one that is meant exactly if the search keeps to its
radius. -/
theorem AnswersNearest.reaches_iff {place : α → Location} {key : α → κ} {candidates : Actor → List α}
    {subject : α → Target} {x : Attempt Target}
    (h : s.AnswersNearest t Location.Passes place key candidates subject x)
    (somebody : ∀ a, subject a ≠ .nobody) :
    s.AnswersNearest t Location.Reaches place key candidates subject x ↔
      s.KeepsToRadius t place candidates := by
  unfold AnswersNearest KeepsToRadius at *
  cases me : s.world.actor? s.context.frame.actor with
  | none => simp_all
  | some a =>
      cases given : s.radius t with
      | error e => simp_all
      | ok r =>
          rw [me, given] at h
          obtain ⟨y, rfl, finds⟩ := h
          have meant := finds.reaches_iff somebody
          constructor
          · rintro ⟨y', same, finds'⟩ b r' hb hr
            cases same
            cases hb
            cases hr
            exact meant.mp finds'
          · intro keeps
            exact ⟨y, rfl, meant.mpr (keeps a r rfl rfl)⟩

/-- The others online. -/
def others (s : Scene) (me : Actor) : List Actor := s.world.actors.filter fun a => a.id ≠ me.id

theorem mem_actorsAround (s : Scene) (me : Actor) (radius : Float) (x : (Float × String) × ActorId) :
    x ∈ s.actorsAround me radius ↔ ∃ a ∈ s.others me, me.location.Passes radius a.location ∧
      x = ((me.location.square a.location, a.name), a.id) := by
  simp only [actorsAround, others, List.mem_filterMap, List.mem_filter, decide_eq_true_iff]
  constructor
  · rintro ⟨a, inside, here⟩
    split at here
    · cases here
    · next other =>
      split at here
      · next d there =>
        obtain ⟨same, rfl⟩ := Location.distanceSquared_eq_some_iff.mp there
        split at here
        · next near => exact ⟨a, ⟨inside, other⟩, ⟨same, near⟩, (Option.some.inj here).symm⟩
        · cases here
      · cases here
  · rintro ⟨a, ⟨inside, other⟩, passes, rfl⟩
    have there := Location.distanceSquared_eq_some_iff.mpr ⟨passes.world, rfl⟩
    exact ⟨a, inside, by rw [if_neg other, there]; exact if_pos passes.near⟩

/-- The entities around are measured twice, with the same outcome. -/
theorem mem_entitiesAround (s : Scene) (center : Location) (radius : Float) (x : (Float × EntityId) × EntityId) :
    x ∈ s.entitiesAround center radius ↔ ∃ e ∈ s.world.entities, center.Passes radius e.location ∧
      x = ((center.square e.location, e.id), e.id) := by
  simp only [entitiesAround, World.entitiesNear, List.mem_filterMap, List.mem_filter, Location.within_iff,
    Option.map_eq_some_iff]
  constructor
  · rintro ⟨e, ⟨inside, passes⟩, d, there, rfl⟩
    obtain ⟨-, rfl⟩ := Location.distanceSquared_eq_some_iff.mp there
    exact ⟨e, inside, passes, rfl⟩
  · rintro ⟨e, inside, passes, rfl⟩
    exact ⟨e, ⟨inside, passes⟩, _, Location.distanceSquared_eq_some_iff.mpr ⟨passes.world, rfl⟩, rfl⟩

theorem answersNearest_actor (kind : t.kind = some .nearestActor) :
    s.AnswersNearest t Location.Passes Actor.location Actor.name s.others (fun a => .actor a.id)
      (s.findTarget t dice).1 := by
  unfold AnswersNearest findTarget
  rw [kind]
  cases s.world.actor? s.context.frame.actor with
  | none => rfl
  | some me =>
      cases s.radius t with
      | error e => rfl
      | ok radius =>
          refine ⟨_, rfl, .of_around (s.mem_actorsAround me radius) (fun none => ?_) fun c some => ?_⟩
          · simp only [none]
          · simp only [some]

theorem answersNearest_entity (kind : t.kind = some .nearestEntity) :
    s.AnswersNearest t Location.Passes Entity.location Entity.id (fun _ => s.world.entities)
      (fun e => .entity e.id) (s.findTarget t dice).1 := by
  unfold AnswersNearest findTarget
  rw [kind]
  cases s.world.actor? s.context.frame.actor with
  | none => rfl
  | some me =>
      cases s.radius t with
      | error e => rfl
      | ok radius =>
          refine ⟨_, rfl, .of_around (s.mem_entitiesAround me.location radius) (fun none => ?_) fun c some => ?_⟩
          · simp only [none]
          · simp only [some]

/-- A scene with its actors and entities in another order. -/
def reordered (s : Scene) {actors : List Actor} (perm : actors.Perm s.world.actors)
    (entities : List Entity) : Scene :=
  { s with
    world := { s.world with
      actors, entities
      distinct := (perm.map Actor.id).nodup_iff.mpr s.world.distinct } }

theorem agrees_reordered (s : Scene) {actors : List Actor} (perm : actors.Perm s.world.actors)
    (entities : List Entity) : (s.reordered perm entities).Agrees s :=
  ⟨rfl, rfl, World.actor?_eq_of_perm perm, rfl⟩

/-- The answer of a search is the same in another order, where the key determines the subject. -/
theorem AnswersNearest.eq_of_agrees {s s' : Scene} (agrees : s'.Agrees s)
    (frame : s'.context.frame.actor = s.context.frame.actor) {place : α → Location} {key : α → κ}
    {candidates candidates' : Actor → List α} {subject : α → Target} {x y : Attempt Target}
    {qualifies : Location → Float → Location → Prop}
    (hx : s.AnswersNearest t qualifies place key candidates subject x)
    (hy : s'.AnswersNearest t qualifies place key candidates' subject y)
    (perm : ∀ me, (candidates' me).Perm (candidates me))
    (determines : ∀ me, ∀ a ∈ candidates me, ∀ b ∈ candidates me, key a = key b → subject a = subject b) :
    y = x := by
  unfold AnswersNearest at hx hy
  rw [frame, agrees.actors, agrees.radius] at hy
  cases me : s.world.actor? s.context.frame.actor with
  | none =>
      rw [me] at hx hy
      exact hy.trans hx.symm
  | some a =>
      cases given : s.radius t with
      | error e =>
          rw [me, given] at hx hy
          exact hy.trans hx.symm
      | ok r =>
          rw [me, given] at hx hy
          obtain ⟨x, rfl, hx⟩ := hx
          obtain ⟨y, rfl, hy⟩ := hy
          rw [hx.eq_of_perm hy (perm a) (determines a)]

/-- A search for the nearest draws no number. -/
theorem findTarget_eq_of_fst {s s' : Scene}
    (kind : t.kind = some .nearestActor ∨ t.kind = some .nearestEntity)
    (same : (s'.findTarget t dice).1 = (s.findTarget t dice).1) :
    s'.findTarget t dice = s.findTarget t dice := by
  have untouched (s : Scene) : (s.findTarget t dice).2 = dice := by
    unfold findTarget
    rcases kind with kind | kind <;> rw [kind]
  exact Prod.ext same ((untouched s').trans (untouched s).symm)

/-- **A search for the nearest finds a nearest one of those that pass its test, whatever the order.**  An actor
is looked for among the others online, by name where two are as near, and an entity among all entities, by
number.  In any other order of the actors, if their names are distinct, and of the entities the same subject
is found.

**It is the nearest within the radius exactly if the search keeps to its radius**, and so it does whenever the
radius is not negative and has a square. -/
theorem findTarget_nearest (s : Scene) (t : Targeting) (dice : Dice) :
    (t.kind = some .nearestActor →
      s.AnswersNearest t Location.Passes Actor.location Actor.name s.others (fun a => .actor a.id)
        (s.findTarget t dice).1 ∧
      (s.AnswersNearest t Location.Reaches Actor.location Actor.name s.others (fun a => .actor a.id)
        (s.findTarget t dice).1 ↔ s.KeepsToRadius t Actor.location s.others)) ∧
    (t.kind = some .nearestEntity →
      s.AnswersNearest t Location.Passes Entity.location Entity.id (fun _ => s.world.entities)
        (fun e => .entity e.id) (s.findTarget t dice).1 ∧
      (s.AnswersNearest t Location.Reaches Entity.location Entity.id (fun _ => s.world.entities)
        (fun e => .entity e.id) (s.findTarget t dice).1 ↔
          s.KeepsToRadius t Entity.location fun _ => s.world.entities)) ∧
    ((∀ radius, s.radius t = .ok radius → 0 ≤ radius ∧ radius * radius < Float.inf) →
      s.KeepsToRadius t Actor.location s.others ∧
        s.KeepsToRadius t Entity.location fun _ => s.world.entities) ∧
    (∀ (actors : List Actor) (entities : List Entity) (permA : actors.Perm s.world.actors),
      entities.Perm s.world.entities →
      (t.kind = some .nearestActor → (s.world.actors.map Actor.name).Nodup →
        (s.reordered permA entities).findTarget t dice = s.findTarget t dice) ∧
      (t.kind = some .nearestEntity →
        (s.reordered permA entities).findTarget t dice = s.findTarget t dice)) := by
  refine ⟨fun kind => ⟨answersNearest_actor kind, (answersNearest_actor kind).reaches_iff nofun⟩,
    fun kind => ⟨answersNearest_entity kind, (answersNearest_entity kind).reaches_iff nofun⟩,
    fun radius => ⟨keepsToRadius_of_radius radius _ _, keepsToRadius_of_radius radius _ _⟩,
    fun actors entities permA permE => ⟨fun kind names => ?_, fun kind => ?_⟩⟩
  · refine findTarget_eq_of_fst (.inl kind) ?_
    refine AnswersNearest.eq_of_agrees (s.agrees_reordered permA entities) rfl
      (answersNearest_actor kind) (answersNearest_actor kind) (fun me => permA.filter _) ?_
    intro me a ha b hb same
    rw [List.inj_on_of_nodup_map names (List.mem_of_mem_filter ha) (List.mem_of_mem_filter hb) same]
  · refine findTarget_eq_of_fst (.inr kind) ?_
    refine AnswersNearest.eq_of_agrees (s.agrees_reordered permA entities) rfl
      (answersNearest_entity kind) (answersNearest_entity kind) (fun _ => permE) ?_
    intro me a _ b _ same
    exact congrArg Target.entity same

/-- A scene with two actors and two entities who are as far from the acting one, somebody in another
world and somebody whose place is not a number. -/
def gathering : Scene :=
  { context := { frame := { actor := ⟨1⟩, target := .nobody, logLimit := 8, cancel := 0 } }
    world := {
      actors := [
        { id := ⟨1⟩, name := "ada", location := {} },
        { id := ⟨2⟩, name := "nan", location := { x := 0 / 0 } },
        { id := ⟨3⟩, name := "cleo", location := { x := 3, z := 4 } },
        { id := ⟨4⟩, name := "bert", location := { y := 5 } },
        { id := ⟨5⟩, name := "afar", location := { world := "nether" } }]
      entities := [⟨8, "pig", { z := -5 }⟩, ⟨6, "cow", { x := 5 }⟩, ⟨7, "cow", { x := 6 }⟩]
      distinct := by decide } }

/-- Forwards and backwards the actor of lesser name and the entity of lesser number are found.  With a radius
of minus five the same actor is found, who is not within it. -/
theorem findTarget_gathering :
    let actor : Targeting := { kind := some .nearestActor }
    let entity : Targeting := { kind := some .nearestEntity }
    let inward : Targeting := { kind := some .nearestActor, radius := some (.number (.ofFloat (-5))) }
    let backwards := gathering.reordered gathering.world.actors.reverse_perm
      gathering.world.entities.reverse
    ((gathering.findTarget actor (.ofSeed 0)).1 matches .ok (.actor ⟨4⟩)) ∧
      ((gathering.findTarget entity (.ofSeed 0)).1 matches .ok (.entity 6)) ∧
      ((gathering.findTarget inward (.ofSeed 0)).1 matches .ok (.actor ⟨4⟩)) ∧
      gathering.AnswersNearest actor Location.Reaches Actor.location Actor.name gathering.others
        (fun a => .actor a.id) (gathering.findTarget actor (.ofSeed 0)).1 ∧
      gathering.AnswersNearest entity Location.Reaches Entity.location Entity.id
        (fun _ => gathering.world.entities) (fun e => .entity e.id)
        (gathering.findTarget entity (.ofSeed 0)).1 ∧
      ¬ gathering.AnswersNearest inward Location.Reaches Actor.location Actor.name gathering.others
        (fun a => .actor a.id) (gathering.findTarget inward (.ofSeed 0)).1 ∧
      backwards.findTarget actor (.ofSeed 0) = gathering.findTarget actor (.ofSeed 0) ∧
      backwards.findTarget entity (.ofSeed 0) = gathering.findTarget entity (.ofSeed 0) := by
  intro actor entity inward backwards
  have names : (gathering.world.actors.map Actor.name).Nodup := by decide
  have nearest (t : Targeting) := gathering.findTarget_nearest t (.ofSeed 0)
  have reordered (t : Targeting) := (nearest t).2.2.2 _ _ gathering.world.actors.reverse_perm
    gathering.world.entities.reverse_perm
  -- both searches without a radius of their own go by the default one
  have usual (r : Float) (given : .ok defaultRadius = (.ok r : Attempt Float)) :
      0 ≤ r ∧ r * r < Float.inf := by
    cases given
    decide +kernel
  refine ⟨by decide +kernel, by decide +kernel, by decide +kernel,
    ((nearest actor).1 rfl).2.mpr ((nearest actor).2.2.1 usual).1,
    ((nearest entity).2.1 rfl).2.mpr ((nearest entity).2.2.1 usual).2, fun meant => ?_,
    (reordered actor).1 rfl names, (reordered entity).2 rfl⟩
  have keeps := ((nearest inward).1 rfl).2.mp meant
  obtain ⟨a, -, reached⟩ := keeps _ (-5) rfl rfl ⟨_, .tail _ (.tail _ (.head _)), rfl, by decide +kernel⟩
  exact absurd reached.positive (by decide +kernel)

end Scene

end Blockwork
