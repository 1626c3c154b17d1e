import Blockwork.Proofs.Handlers
import Blockwork.Proofs.Script
import Blockwork.Proofs.Session.Operations
import Blockwork.Proofs.Session.Units

/-!
# Derived tables are never stale

Two tables of a session are derived from its scripts: the handlers, which name lines by their bare
index, and the function table of each script.  Neither is looked at critically when it is used, so
both must be exact in every state that a host can bring about.

## What is load-bearing

* `Indexed`: a script is filed under its owner, its handlers are its lines that start with an event,
  and its function table is the one that collecting would give.
* `Indexed.filed`: whatever puts a script into the session, by installing, loading or editing, files
  and registers it in one go.
* `Indexed.of_globals`: running changes nothing of a script that either table depends on.

An archive must not hand out a script of another owner: registering goes by the owner that the script
names, filing by the one it was asked for.
-/

namespace Blockwork

/-! ## Handlers and lines -/

/-- The indices of the lines that wait for a kind of event, ascending. -/
def Script.linesFor (s : Script) (kind : EventKind) : List Nat :=
  (s.lines.zipIdx.filter fun l => l.1.eventKind == some kind).map Prod.snd

theorem Script.linesFor_eq (s : Script) (kind : EventKind) :
    s.linesFor kind =
      ((s.lines.map Line.eventKind).zipIdx.filter fun l => l.1 == some kind).map Prod.snd := by
  rw [linesFor, List.zipIdx_map, List.filter_map, List.map_map]
  rfl

/-- What does not depend on whether a line is on stays as it is in all lines. -/
theorem map_modify_enabled {α : Type} (g : Line → α) (index : Nat) (enabled : Bool)
    (lines : List Line) (same : ∀ l : Line, g { l with enabled := enabled } = g l) :
    (lines.modify index fun l => { l with enabled := enabled }).map g = lines.map g := by
  apply List.ext_getElem?
  intro i
  rw [List.getElem?_map, List.getElem?_modify, List.getElem?_map]
  split
  · cases lines[i]? with
    | none => rfl
    | some l => exact congrArg some (same l)
  · simp

namespace Handlers

/-- The lines of an owner's handlers for a kind of event, in the order of registration. -/
def linesFor (h : Handlers) (kind : EventKind) (owner : ActorId) : List Nat :=
  ((h.handlersFor kind).filter fun handler => handler.owner == owner).map Handler.line

theorem linesFor_eq (h : Handlers) (kind : EventKind) (owner : ActorId) :
    h.linesFor kind owner = ((h.entriesOf owner).filter fun e => e.1 == kind).map fun e => e.2.line := by
  unfold linesFor handlersFor entriesOf
  rw [List.filter_map, List.map_map, List.filter_filter, List.filter_filter]
  refine congrArg (List.map _) (List.filter_congr fun e _ => ?_)
  exact Bool.and_comm _ _

theorem linesFor_addLines (owner : ActorId) (kind : EventKind) (index : Nat) (lines : List Line)
    (h : Handlers) :
    (addLines owner index lines h).linesFor kind owner = h.linesFor kind owner ++
      ((lines.zipIdx index).filter fun l => l.1.eventKind == some kind).map Prod.snd := by
  induction lines generalizing index h with
  | nil => simp [addLines]
  | cons l rest ih =>
      rw [addLines, List.zipIdx_cons, List.filter_cons]
      cases waits : l.eventKind with
      | none => simpa [waits] using ih (index + 1) h
      | some k =>
          rw [ih]
          by_cases same : k = kind
          · simp [linesFor, handlersFor, same]
          · simp [linesFor, handlersFor, same]

/-- Registering a script gives its owner the handlers of its lines. -/
theorem linesFor_register (h : Handlers) (s : Script) (kind : EventKind) :
    (h.register s).linesFor kind s.ownerId = s.linesFor kind := by
  rw [register, linesFor_addLines, linesFor_eq, entriesOf_unregister_self]
  rfl

theorem linesFor_register_of_ne (h : Handlers) (s : Script) (kind : EventKind) {other : ActorId}
    (ne : s.ownerId ≠ other) : (h.register s).linesFor kind other = h.linesFor kind other := by
  rw [linesFor_eq, linesFor_eq, entriesOf_register_of_ne h s ne]

end Handlers

/-- An archive that has under an owner only scripts of that owner. -/
def Archive.Honest {σ : Type} [Archive σ] (a : σ) : Prop :=
  ∀ owner supply script supply', Archive.load a owner supply = .ok (some (script, supply')) →
    script.ownerId = owner

namespace Session

variable {σ : Type} {s s' : Session σ}

/-! ## The invariant -/

/-- The derived tables agree with the scripts. -/
structure Indexed (s : Session σ) : Prop where
  /-- A script is filed under its owner. -/
  owners : ∀ owner script, s.scripts.get? owner = some script → script.ownerId = owner
  /-- The handlers are the lines that start with an event. -/
  handlers : ∀ kind owner, s.handlers.linesFor kind owner =
    ((s.scripts.get? owner).map fun script => script.linesFor kind).getD []
  /-- The function tables are collected from the lines. -/
  functions : ∀ owner script, s.scripts.get? owner = some script →
    script.functions = Script.collectFunctions script.blocks

namespace Indexed

theorem start (limits : Limits) (world : World) (effects : Effects) (archive : σ) :
    Indexed (Session.start limits world effects archive) :=
  ⟨fun _ _ h => (nomatch h), fun _ _ => rfl, fun _ _ h => nomatch h⟩

/-- Scripts that have changed in nothing but their globals. -/
theorem of_globals (h : s.Indexed) (handlers : s'.handlers = s.handlers)
    (scripts : ∀ o, ∃ g : Script → Table String Scalar, s'.scripts.get? o =
      (s.scripts.get? o).map fun script => { script with globals := g script }) : s'.Indexed := by
  have before {o : ActorId} {script' : Script} (loaded : s'.scripts.get? o = some script') :
      ∃ script g, s.scripts.get? o = some script ∧ { script with globals := g } = script' := by
    obtain ⟨g, same⟩ := scripts o
    rw [loaded] at same
    obtain ⟨script, found, rfl⟩ := Option.map_eq_some_iff.mp same.symm
    exact ⟨script, g script, found, rfl⟩
  refine ⟨fun o script' loaded => ?_, fun kind o => ?_, fun o script' loaded => ?_⟩
  · obtain ⟨script, g, found, rfl⟩ := before loaded
    exact h.owners o script found
  · obtain ⟨g, same⟩ := scripts o
    rw [handlers, h.handlers, same, Option.map_map]
    rfl
  · obtain ⟨script, g, found, rfl⟩ := before loaded
    exact h.functions o script found

theorem of_worksFor (h : s.Indexed) {owner : ActorId} (works : WorksFor owner s s') : s'.Indexed := by
  refine h.of_globals works.handlers fun o => ?_
  by_cases own : o = owner
  · exact own ▸ works.own
  · exact ⟨Script.globals, by rw [works.others o own]; simp⟩

/-- Sessions with the same scripts and handlers. -/
theorem of_eq (h : s.Indexed) (handlers : s'.handlers = s.handlers)
    (scripts : s'.scripts = s.scripts) : s'.Indexed :=
  h.of_globals handlers fun o => ⟨Script.globals, by rw [scripts]; simp⟩

/-- A script that is filed and registered under its owner. -/
theorem filed (h : s.Indexed) (script : Script)
    (functions : script.functions = Script.collectFunctions script.blocks)
    (handlers : s'.handlers = s.handlers.register script)
    (scripts : s'.scripts = s.scripts.insert script.ownerId script) : s'.Indexed := by
  refine ⟨fun o other loaded => ?_, fun kind o => ?_, fun o other loaded => ?_⟩
  · rw [scripts, Table.get?_insert] at loaded
    split at loaded
    · next same =>
      cases loaded
      exact same
    · exact h.owners o other loaded
  · rw [handlers, scripts, Table.get?_insert]
    split
    · next same =>
      subst same
      exact Handlers.linesFor_register ..
    · next other => rw [Handlers.linesFor_register_of_ne _ _ _ other, h.handlers]
  · rw [scripts, Table.get?_insert] at loaded
    split at loaded
    · cases loaded
      exact functions
    · exact h.functions o other loaded

/-- A script that is taken away with its handlers. -/
theorem dropped (h : s.Indexed) {owner : ActorId}
    (handlers : s'.handlers = s.handlers.unregister owner)
    (scripts : s'.scripts = s.scripts.erase owner) : s'.Indexed := by
  have before {o : ActorId} {script : Script} (loaded : s'.scripts.get? o = some script) :
      s.scripts.get? o = some script := by
    rw [scripts, Table.get?_erase] at loaded
    split at loaded
    · cases loaded
    · exact loaded
  refine ⟨fun o script loaded => h.owners o script (before loaded), fun kind o => ?_,
    fun o script loaded => h.functions o script (before loaded)⟩
  rw [handlers, scripts, Table.get?_erase, Handlers.linesFor_eq]
  split
  · next same => rw [same, Handlers.entriesOf_unregister_self]; rfl
  · next other =>
    rw [Handlers.entriesOf_unregister_of_ne _ other, ← Handlers.linesFor_eq, h.handlers]

theorem ensureLoaded [Archive σ] (h : s.Indexed) (honest : Archive.Honest s.archive)
    {owner : ActorId} {found : Bool} (done : s.ensureLoaded owner = .ok (found, s')) :
    s'.Indexed ∧ s'.archive = s.archive := by
  rcases ensureLoaded_eq_ok_iff.mp done with ⟨_, -, -, rfl⟩ | ⟨-, -, -, rfl⟩ |
    ⟨script, supply, -, loaded, -, rfl⟩
  · exact ⟨h, rfl⟩
  · exact ⟨h, rfl⟩
  · have own := honest owner _ script supply loaded
    refine ⟨h.filed script.rebuildFunctions rfl rfl ?_, rfl⟩
    rw [← own]
    rfl

theorem install (h : s.Indexed) {script : Script} (done : s.install script = .ok s') :
    s'.Indexed := by
  unfold Session.install at done
  split at done
  · cases done
  · cases done
    exact h.filed script.rebuildFunctions rfl rfl rfl

/-- An edit that leaves the script with its owner. -/
theorem edit_of_owner [Archive σ] (h : s.Indexed) (honest : Archive.Honest s.archive) {owner : ActorId}
    {change : Script → Script} (done : s.edit owner change = .ok s')
    (own : ∀ script, s'.scripts.get? owner = some script → script.ownerId = owner) : s'.Indexed := by
  obtain ⟨found, s₁, loading, rfl⟩ := edit_eq_ok_iff.mp done
  obtain ⟨indexed, -⟩ := h.ensureLoaded honest loading
  have same := own _ (Table.get?_insert_self ..)
  refine indexed.filed _ rfl rfl ?_
  rw [same]
  rfl

theorem edit [Archive σ] (h : s.Indexed) (honest : Archive.Honest s.archive) {owner : ActorId}
    {change : Script → Script} (keeps : ∀ script, (change script).ownerId = script.ownerId)
    (done : s.edit owner change = .ok s') : s'.Indexed := by
  refine h.edit_of_owner honest done fun script edited => ?_
  obtain ⟨found, s₁, loading, rfl⟩ := edit_eq_ok_iff.mp done
  obtain ⟨indexed, -⟩ := h.ensureLoaded honest loading
  -- the script that is edited is the owner's, whether it was there or is made
  have own : ((s₁.scripts.get? owner).getD (s₁.blankScript owner)).ownerId = owner := by
    cases present : s₁.scripts.get? owner with
    | none => rfl
    | some script => exact indexed.owners owner script present
  obtain rfl := Option.some.inj (edited.symm.trans (Table.get?_insert_self ..))
  exact (keeps _).trans own

/-- Turning a line on or off changes neither its event nor its blocks. -/
theorem setLineEnabled (h : s.Indexed) {owner : ActorId} {line : Nat} {enabled : Bool}
    (done : s.setLineEnabled owner line enabled = .ok s') : s'.Indexed := by
  unfold Session.setLineEnabled at done
  split at done
  · cases done
  · next script loaded =>
    split at done
    · cases done
      let lines := script.lines.modify line fun l => { l with enabled := enabled }
      have kinds (kind : EventKind) :
          Script.linesFor { script with lines := lines } kind = script.linesFor kind := by
        rw [Script.linesFor_eq, Script.linesFor_eq]
        have same : lines.map Line.eventKind = script.lines.map Line.eventKind :=
          map_modify_enabled Line.eventKind line enabled script.lines fun _ => rfl
        rw [same]
      have blocks : Script.blocks { script with lines := lines } = script.blocks := by
        rw [Script.blocks, Script.blocks, List.flatMap_def, List.flatMap_def]
        have same : lines.map Line.blocks = script.lines.map Line.blocks :=
          map_modify_enabled Line.blocks line enabled script.lines fun _ => rfl
        rw [same]
      refine ⟨fun o other found => ?_, fun kind o => ?_, fun o other found => ?_⟩
      · rw [markDirty, Table.get?_insert] at found
        split at found
        · next same =>
          cases found
          exact same ▸ h.owners owner script loaded
        · exact h.owners o other found
      · rw [markDirty, Table.get?_insert]
        refine (h.handlers kind o).trans ?_
        split
        · next same =>
          rw [← same, loaded]
          exact (kinds kind).symm
        · rfl
      · rw [markDirty, Table.get?_insert] at found
        split at found
        · cases found
          exact (h.functions owner script loaded).trans (congrArg _ blocks.symm)
        · exact h.functions o other found
    · cases done

theorem dispatchNow [Archive σ] (h : s.Indexed) (honest : Archive.Honest s.archive) (e : Event) :
    (s.dispatchNow e).Indexed ∧ (s.dispatchNow e).archive = s.archive := by
  unfold Session.dispatchNow
  cases loading : s.ensureLoaded e.actor with
  | error _ => exact ⟨h, rfl⟩
  | ok result =>
      obtain ⟨found, s₁⟩ := result
      obtain ⟨indexed, archive⟩ := h.ensureLoaded honest loading
      -- every handler that an event starts is one of the acting actor
      have works : WorksFor e.actor s₁ ((s₁.handlers.matching e).foldl (fun s h => s.runHandler h e) s₁) := by
        apply WorksFor.foldl
        intro handler listed s
        rw [← Handlers.owner_of_mem_matching listed]
        exact s.runHandler_worksFor handler e
      exact ⟨indexed.of_worksFor works, works.archive.trans archive⟩

theorem dispatch [Archive σ] (h : s.Indexed) (honest : Archive.Honest s.archive) (e : Event) :
    (s.dispatch e).Indexed := by
  unfold Session.dispatch
  split
  · exact (h.dispatchNow honest e).1
  · exact h.of_eq rfl rfl

/-- A chain of units, each for an owner of its own. -/
theorem foldl_worksFor {α : Type} {step : Session σ → α → Session σ} (owner : α → ActorId)
    (each : ∀ s a, WorksFor (owner a) s (step s a)) (l : List α) {s : Session σ} (h : s.Indexed) :
    (l.foldl step s).Indexed := by
  induction l generalizing s with
  | nil => exact h
  | cons a l ih => exact ih (h.of_worksFor (each s a))

theorem runDelays (h : s.Indexed) : s.runDelays.Indexed := by
  have taken (agenda : Agenda) : Indexed { s with machine := { s.machine with agenda := agenda } } :=
    h.of_eq rfl rfl
  exact foldl_worksFor Delayed.actor runDelayed_worksFor _ (taken _)

theorem pollLoops (h : s.Indexed) : s.pollLoops.Indexed := by
  have taken (agenda : Agenda) : Indexed { s with machine := { s.machine with agenda := agenda } } :=
    h.of_eq rfl rfl
  exact foldl_worksFor LoopTask.actor pollLoop_worksFor _ (taken _)

theorem tick [Archive σ] (h : s.Indexed) (honest : Archive.Honest s.archive) : s.tick.Indexed := by
  have events : ∀ (inbox : List Event) {s : Session σ}, s.Indexed → Archive.Honest s.archive →
      (inbox.foldl Session.dispatchNow s).Indexed := by
    intro inbox
    induction inbox with
    | nil => exact fun h _ => h
    | cons e rest ih =>
        intro s h honest
        obtain ⟨indexed, archive⟩ := h.dispatchNow honest e
        exact ih indexed (archive ▸ honest)
  have emptied : Indexed { s with inbox := [] } := h.of_eq rfl rfl
  have started := events s.inbox emptied honest
  exact pollLoops (runDelays (started.of_eq rfl rfl))

theorem flushOne_tables [Archive σ] (f : Flush σ) (owner : ActorId) :
    (flushOne f owner).session.handlers = f.session.handlers ∧
      (flushOne f owner).session.scripts = f.session.scripts := by
  unfold flushOne
  split
  · exact ⟨rfl, rfl⟩
  · dsimp only
    split
    · exact ⟨rfl, rfl⟩
    · exact ⟨rfl, rfl⟩

theorem flush [Archive σ] (h : s.Indexed) : s.flush.2.Indexed := by
  have all : ∀ (owners : List ActorId) (f : Flush σ),
      (owners.foldl flushOne f).session.handlers = f.session.handlers ∧
        (owners.foldl flushOne f).session.scripts = f.session.scripts := by
    intro owners
    induction owners with
    | nil => exact fun f => ⟨rfl, rfl⟩
    | cons o rest ih =>
        intro f
        obtain ⟨handlers, scripts⟩ := ih (flushOne f o)
        obtain ⟨handlers', scripts'⟩ := flushOne_tables f o
        exact ⟨handlers.trans handlers', scripts.trans scripts'⟩
  obtain ⟨handlers, scripts⟩ := all s.dirty.keys { session := { s with dirty := {} } }
  have same : s.flush.2 = (s.dirty.keys.foldl flushOne { session := { s with dirty := {} } }).session := by
    unfold Session.flush
    dsimp only
    split <;> rfl
  rw [same]
  exact h.of_eq handlers scripts

theorem depart [Archive σ] (h : s.Indexed) (actor : ActorId) : (s.depart actor).2.Indexed := by
  rw [depart_eq]
  exact h.dropped rfl rfl

end Indexed

/-! ## Operations of a host -/

/-- What a host can do to a session. -/
inductive Operates {σ : Type} [Archive σ] (before : Session σ) : Session σ → Prop where
  /-- A script is installed. -/
  | install {script : Script} {after : Session σ} (done : before.install script = .ok after) :
      Operates before after
  /-- A script is edited in anything but its owner. -/
  | edit {owner : ActorId} {change : Script → Script}
      (keeps : ∀ script, (change script).ownerId = script.ownerId)
      {after : Session σ} (done : before.edit owner change = .ok after) : Operates before after
  /-- A line is turned on or off. -/
  | setLineEnabled {owner : ActorId} {line : Nat} {enabled : Bool} {after : Session σ}
      (done : before.setLineEnabled owner line enabled = .ok after) : Operates before after
  /-- An event is handed over. -/
  | dispatch (e : Event) : Operates before (before.dispatch e)
  /-- A tick passes. -/
  | tick : Operates before before.tick
  /-- Scripts are saved. -/
  | flush : Operates before before.flush.2
  /-- An actor departs. -/
  | depart (actor : ActorId) : Operates before (before.depart actor).2
  /-- Something happens around the session: in the world, in the archive, to a loop or to the time. -/
  | around (machine : Machine) (archive : σ) (now : Timestamp) :
      Operates before { before with machine, archive, now }

/-- A session that a host has brought about, over an archive that has been honest all the time. -/
inductive Operated {σ : Type} [Archive σ] : Session σ → Prop where
  /-- A new session. -/
  | start {limits : Limits} {world : World} {effects : Effects} {archive : σ}
      (honest : Archive.Honest archive) : Operated (Session.start limits world effects archive)
  /-- An operation on a session. -/
  | step {before after : Session σ} (reached : Operated before) (step : Operates before after)
      (honest : Archive.Honest after.archive) : Operated after

theorem Operated.honest [Archive σ] (h : Operated s) : Archive.Honest s.archive := by
  cases h with
  | start honest => exact honest
  | step _ _ honest => exact honest

theorem Indexed.operates [Archive σ] (h : s.Indexed) (honest : Archive.Honest s.archive)
    (step : Operates s s') : s'.Indexed := by
  cases step with
  | install done => exact h.install done
  | edit keeps done => exact h.edit honest keeps done
  | setLineEnabled done => exact h.setLineEnabled done
  | dispatch e => exact h.dispatch honest e
  | tick => exact h.tick honest
  | flush => exact h.flush
  | depart actor => exact h.depart actor
  | around machine archive now => exact h.of_eq rfl rfl

/-- The derived tables agree with the scripts in every state. -/
theorem Operated.indexed [Archive σ] (h : Operated s) : s.Indexed := by
  induction h with
  | start _ => exact .start ..
  | step reached step _ ih => exact ih.operates reached.honest step

/-! ## Events -/

/-- Runs a line for an event in the script of the acting actor. -/
def play (s : Session σ) (e : Event) (line : Line) : Session σ :=
  match s.scripts.get? e.actor with
  | none => s
  | some script =>
    let m := s.machine
    let (signal, signals) := m.signals.fresh
    let c := Context.ofScript e.actor script s.limits.logEntries signal
    let (c, dice) := bindRoles c e m.world m.dice
    let (o, c, m) := c.runLine { m with signals := signals, dice := dice } s.limits line
    ({ s with machine := report m e.actor c.frame.line o }).commit e.actor c

/-- A handler of the acting actor runs its line, unless one of three flags is against it. -/
theorem runHandler_eq_play {h : Handler} {e : Event} (own : h.owner = e.actor) {script : Script}
    (loaded : s.scripts.get? e.actor = some script) {line : Line}
    (there : script.lines[h.line]? = some line) :
    s.runHandler h e =
      if script.enabled && line.enabled && isBoundHere s.machine.world script e.actor then
        s.play e line
      else s := by
  simp only [runHandler, play, own, loaded, there]

/-- Handlers run their lines one after another.  The script stays the same, globals apart, so the
indices keep meaning the lines they were registered for. -/
theorem foldl_runHandler {e : Event} {script : Script} {handlers : List Handler}
    {lines : List (Line × Nat)} (indices : handlers.map Handler.line = lines.map Prod.snd)
    (own : ∀ h ∈ handlers, h.owner = e.actor)
    (there : ∀ l ∈ lines, script.lines[l.2]? = some l.1) {s : Session σ}
    (loaded : ∃ g, s.scripts.get? e.actor = some { script with globals := g }) :
    handlers.foldl (fun s h => s.runHandler h e) s =
      (lines.map Prod.fst).foldl (fun s line =>
        if script.enabled && line.enabled && isBoundHere s.machine.world script e.actor then
          s.play e line
        else s) s := by
  induction handlers generalizing lines s with
  | nil =>
      obtain rfl : lines = [] := by simpa using indices.symm
      rfl
  | cons h rest ih =>
      cases lines with
      | nil => cases indices
      | cons l ls =>
          rw [List.map_cons, List.map_cons, List.cons.injEq] at indices
          obtain ⟨g, loaded⟩ := loaded
          have mine := own h (List.mem_cons_self ..)
          have found : ({ script with globals := g } : Script).lines[h.line]? = some l.1 := by
            rw [indices.1]
            exact there l (List.mem_cons_self ..)
          have here := runHandler_eq_play mine loaded found
          rw [List.foldl_cons, List.map_cons, List.foldl_cons]
          have kept : WorksFor e.actor s (s.runHandler h e) := mine ▸ s.runHandler_worksFor h e
          obtain ⟨g', own'⟩ := kept.own
          rw [loaded] at own'
          rw [ih indices.2 (fun h hh => own h (List.mem_cons_of_mem _ hh))
            (fun l hl => there l (List.mem_cons_of_mem _ hl)) ⟨_, own'⟩, here]
          rfl

/-- The handlers that an event starts are the enabled lines of its kind, in line order. -/
theorem Indexed.dispatchNow_eq [Archive σ] {s₁ : Session σ} (h : s₁.Indexed) {e : Event}
    {script : Script} (loaded : s₁.scripts.get? e.actor = some script) :
    (s₁.handlers.matching e).foldl (fun s h => s.runHandler h e) s₁ =
      (script.lines.filter fun l => l.enabled && l.eventKind == some e.kind).foldl (fun s line =>
        if script.enabled && isBoundHere s.machine.world script e.actor then s.play e line else s)
        s₁ := by
  have indices : (s₁.handlers.matching e).map Handler.line =
      (script.lines.zipIdx.filter fun l => l.1.eventKind == some e.kind).map Prod.snd := by
    have := h.handlers e.kind e.actor
    rwa [loaded] at this
  have there : ∀ l ∈ script.lines.zipIdx.filter (fun l => l.1.eventKind == some e.kind),
      script.lines[l.2]? = some l.1 := by
    intro l hl
    exact List.mem_zipIdx_iff_getElem?.mp (List.mem_filter.mp hl).1
  have waiting : (script.lines.zipIdx.filter fun l => l.1.eventKind == some e.kind).map Prod.fst =
      script.lines.filter fun l => l.eventKind == some e.kind := by
    have := List.filter_map (f := Prod.fst) (l := script.lines.zipIdx)
      (p := fun l : Line => l.eventKind == some e.kind)
    rw [List.zipIdx_map_fst] at this
    exact this.symm
  rw [foldl_runHandler indices (fun h => Handlers.owner_of_mem_matching) there
    ⟨script.globals, loaded⟩, waiting, ← List.filter_filter]
  generalize script.lines.filter (fun l => l.eventKind == some e.kind) = lines
  rw [List.foldl_filter]
  congr 1
  funext s line
  cases line.enabled <;> simp

/-- **Derived tables are exact, and so is what an event starts.**  For each kind of event and each
owner there is one handler for each line of the loaded script that starts with such an event, in line
order, and none else; each function table has the first definition of every name; and an event runs
the enabled lines of its kind once each, in line order, each behind the two tests that are made right
before it. -/
theorem tables_exact [Archive σ] (reached : Operated s) :
    (∀ kind owner,
      ((s.handlers.handlersFor kind).filter fun h => h.owner == owner).map Handler.line =
        ((s.scripts.get? owner).map fun script => script.linesFor kind).getD []) ∧
      (∀ owner script, s.scripts.get? owner = some script → ∀ name,
        script.functions.get? name =
          (script.blocks.flatMap Block.preorder).find? (Block.defines name)) ∧
      ∀ e s₁, s.machine.world.onTickThread → s.ensureLoaded e.actor = .ok (true, s₁) →
        ∃ script, s₁.scripts.get? e.actor = some script ∧
          s.dispatch e =
            (script.lines.filter fun l => l.enabled && l.eventKind == some e.kind).foldl
              (fun s line =>
                if script.enabled && isBoundHere s.machine.world script e.actor then s.play e line
                else s) s₁ := by
  have indexed := reached.indexed
  refine ⟨indexed.handlers, fun owner script loaded name => ?_, fun e s₁ onThread loading => ?_⟩
  · rw [indexed.functions owner script loaded, Script.get?_collectFunctions]
  · obtain ⟨script, loaded⟩ := (get?_of_ensureLoaded loading).mp rfl
    refine ⟨script, loaded, ?_⟩
    rw [dispatch, if_pos onThread, dispatchNow, loading]
    exact (indexed.ensureLoaded reached.honest loading).1.dispatchNow_eq loaded

/-- A script with two lines for its owner's coming and one for the owner's leaving. -/
def host : Script :=
  { ownerId := ⟨1⟩
    ownerName := "ada"
    lastModified := ⟨0, 0⟩
    lines := [
      { name := "hello", blocks := [⟨⟨2⟩, .event (some .join), []⟩] },
      { name := "bye", blocks := [⟨⟨3⟩, .event (some .quit), []⟩] },
      { name := "again", enabled := false, blocks := [⟨⟨4⟩, .event (some .join), []⟩] }] }

/-- A session with that script. -/
def hosted : Session MemoryArchive :=
  { Session.start {} {} .refusing ({} : MemoryArchive) with
    scripts := ({} : Table ActorId Script).insert ⟨1⟩ host.rebuildFunctions
    handlers := ({} : Handlers).register host
    dirty := ({} : Table ActorId Unit).insert ⟨1⟩ () }

/-- After installing it, both lines for the owner's coming have handlers, the one that is off too. -/
theorem tables_exact_hosted : Operated hosted ∧
    ((hosted.handlers.handlersFor .join).filter fun h => h.owner == ⟨1⟩).map Handler.line = [0, 2] := by
  have honest : Archive.Honest ({} : MemoryArchive) := fun _ _ _ _ h => nomatch h
  have sound : host.problems = [] := by
    have none : host.problems.isEmpty = true := by decide +kernel
    exact List.isEmpty_iff.mp none
  have installed : (Session.start {} {} .refusing ({} : MemoryArchive)).install host = .ok hosted := by
    rw [Session.install, Script.validate, sound]
    rfl
  have reached : Operated hosted := .step (.start honest) (.install installed) honest
  exact ⟨reached, (tables_exact reached).1 .join ⟨1⟩⟩

end Session

end Blockwork
