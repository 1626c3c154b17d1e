import Blockwork.Proofs.Machine.Behalf
import Blockwork.Proofs.Session.Polls
import Blockwork.Proofs.Session.Saving
import Blockwork.Proofs.Session.Spreading

/-!
# What a session does on behalf of others

An actor without a script, without a slot and with nothing in hand but loops that were told to stop
is left alone by everything that is done for others.  This module says so part by part: units of
work begin nothing for the actor (`Job.leaves_run`) and do nothing on the actor's behalf
(`Performs.without`), and what hosts do to the scripts of others neither loads a script for the
actor nor touches the actor's document (`Session.Lacks`).

## What is load-bearing

A loop that was told to stop is still polled, and after a poll the session commits the context of
the loop and frees a slot.  By then the actor may be back, with a script and another loop.  What
makes the poll harmless is, for the script, that the context has been refreshed and commits what it
was refreshed from (`Context.commit_refresh`), and for the slot, that numbers tell loops apart
(`Registry.release_of_raised`).

Documents go by the owner that a script names, and scripts by the actor that they are kept
for.  Where the two differ, saving another actor's script can write to the actor's document, so what
is said of documents supposes that they agree; `Lacks` has the supposition as a parameter.
-/

namespace Blockwork

/-! ## Units of work -/

/-- On whose behalf a unit of work runs. -/
def Job.actor : Job → ActorId
  | .handler _ e => e.actor
  | .delayed d => d.actor
  | .iteration t => t.actor

/-- A unit of work that begins nothing for an actor: it is another's, or an iteration of a loop that
was told to stop. -/
def Job.Leaves (a : ActorId) (signals : Signals) (j : Job) : Prop :=
  j.actor = a → ∃ t, j = .iteration t ∧ signals.isRaised t.handle.signal = true

/-- Nothing is done on behalf of an actor: no block runs for the actor, no line of an event of the
actor, no delayed body, and of a loop no iteration. -/
structure Happening.Without (a : ActorId) (x : Happening) : Prop where
  /-- Blocks run in frames of others. -/
  blocks : ∀ f b o, .ran f b o ∈ x.deeds → f.actor ≠ a
  /-- Lines are started by events of others. -/
  lines : ∀ n h e deeds, x = .line n h e deeds → e.actor ≠ a
  /-- Bodies run for others. -/
  bodies : ∀ d ∈ x.ran, d.actor ≠ a
  /-- Loops of the actor do nothing when they are polled. -/
  loops : ∀ n t deeds fate, x = .turn n t deeds fate → t.actor = a → deeds = [] ∧ fate = .idle

namespace Session

open Machine (Leaves)

variable {σ : Type} {s : Session σ} {a : ActorId}

theorem leaves_report (m : Machine) (actor : ActorId) (line : String) (o : Outcome) :
    Leaves a m (report m actor line o) := by
  unfold report
  split
  · exact .of_eq rfl rfl rfl
  · exact .refl a m

theorem leaves_conclude (s : Session σ) (owner : ActorId) (c : Context) (o : Outcome) (m : Machine) :
    Leaves a m (s.conclude owner c o m).machine := by
  rw [conclude_machine]
  exact leaves_report m owner c.frame.line o

theorem actor_bindRoles (c : Context) (e : Event) (w : World) (dice : Dice) :
    (bindRoles c e w dice).1.frame.actor = c.frame.actor :=
  congrArg (fun c => c.frame.actor) (withoutRoles_bindRoles c e w dice)

theorem leaves_runHandler (s : Session σ) (h : Handler) {e : Event} (other : e.actor ≠ a) :
    Leaves a s.machine (s.runHandler h e).machine := by
  unfold runHandler
  split
  · exact .refl a _
  split
  · exact .refl a _
  split
  · rw [commit_machine]
    have readied (signals : Signals) (dice : Dice) (later : signals = s.machine.signals.fresh.2) :
        Leaves a s.machine { s.machine with signals := signals, dice := dice } := by
      subst later
      exact .of_agenda_eq ⟨Nat.le_refl _, fun _ hx => hx⟩ rfl id
    refine ((readied _ _ rfl).trans (.of_changes (Context.changes_runLine _ _ _ _) ?_)).trans
      (leaves_report _ _ _ _)
    rw [actor_bindRoles]
    exact other
  · exact .refl a _

theorem leaves_runDelayed (s : Session σ) {d : Delayed} (other : d.actor ≠ a) :
    Leaves a s.machine (s.runDelayed d).machine := by
  refine (Leaves.of_changes (Context.changes_runBlocks _ _ _ _) ?_).trans (s.leaves_conclude _ _ _ _)
  rw [refreshed_actor]
  exact other

/-- A loop that was told to stop ends when it is polled. -/
theorem pollLoop_of_raised {t : LoopTask}
    (raised : s.machine.signals.isRaised t.handle.signal = true) :
    s.pollLoop t = s.conclude t.actor (s.refreshed t.context) .success
      { s.machine with slots := s.machine.slots.release t.actor t.handle.id } := by
  have own : (s.refreshed t.context).frame.actor = t.actor := s.refreshed_actor t.context
  have ended := LoopTask.poll_of_raised (t := { t with context := s.refreshed t.context }) s.limits
    raised
  rw [pollLoop, ended, ← own]
  rfl

theorem leaves_pollLoop (s : Session σ) {t : LoopTask}
    (idle : t.actor = a → s.machine.signals.isRaised t.handle.signal = true) :
    Leaves a s.machine (s.pollLoop t).machine := by
  by_cases own : t.actor = a
  · rw [pollLoop_of_raised (idle own)]
    exact (Leaves.release a s.machine t.token).trans (s.leaves_conclude _ _ _ _)
  · have same : { t with context := s.refreshed t.context }.actor = t.actor :=
      s.refreshed_actor t.context
    unfold pollLoop
    generalize { t with context := s.refreshed t.context } = task at same ⊢
    obtain ⟨t', m, token, changes, result⟩ := task.changes_poll s.machine s.limits
    have ran : Leaves a s.machine m := .of_changes changes (same ▸ own)
    rcases result with pending | ⟨o, finished⟩
    · have other : t'.actor ≠ a := by
        rw [show t'.actor = task.actor from congrArg Prod.fst token, same]
        exact own
      rw [pending]
      exact (ran.trans (.addLoop m other)).trans (s.leaves_conclude _ _ _ _)
    · rw [finished]
      exact (ran.trans (.release a m t'.token)).trans (s.leaves_conclude _ _ _ _)

/-- Of the machine, a host touches only the handler of side effects. -/
theorem Tends.machine_eq [Archive σ] {s' : Session σ} (h : s.Tends s') :
    ∃ effects, s'.machine = { s.machine with effects := effects } := by
  cases h with
  | install done => exact ⟨s.machine.effects, install_machine done⟩
  | edit done => exact ⟨s.machine.effects, edit_machine done⟩
  | setLineEnabled done => exact ⟨s.machine.effects, setLineEnabled_machine done⟩
  | load done => exact ⟨s.machine.effects, ensureLoaded_machine done⟩
  | flush => exact ⟨s.machine.effects, s.flush_machine⟩
  | around effects archive supply now => exact ⟨effects, rfl⟩

theorem Tends.leaves [Archive σ] {s' : Session σ} (h : s.Tends s') :
    s.machine.Leaves a s'.machine := by
  obtain ⟨effects, same⟩ := h.machine_eq
  rw [same]
  exact .of_eq rfl rfl rfl

/-- A loop that was told to stop makes no iteration. -/
theorem Performs.of_raised {t : LoopTask} {x : Happening} (h : s.Performs (.iteration t) x)
    (raised : s.machine.signals.isRaised t.handle.signal = true) :
    x = .turn s.machine.agenda.tick t [] .idle := by
  cases h with
  | idle _ => rfl
  | turn live _ =>
      rw [LoopTask.isOver, raised] at live
      cases live

/-- Everything that comes of a unit of work is done on behalf of its actor. -/
theorem Performs.isBy {j : Job} {x : Happening} (h : s.Performs j x) :
    ∀ deed ∈ x.deeds, deed.IsBy j.actor := by
  cases h with
  | skipped _ | idle _ => exact fun deed none => nomatch none
  | @line h e script line deeds o st _ ran =>
      intro deed mem
      have theirs : deed.IsBy (s.lineFrame script h e line.name).actor := ran.isBy deed mem
      rw [(s.lineFrame_fields script h e line.name).1] at theirs
      exact theirs
  | @delayed d deeds o st ran =>
      intro deed mem
      have theirs := ran.isBy deed mem
      rw [s.refreshed_actor] at theirs
      exact theirs
  | @turn t _ deeds step st ran =>
      intro deed mem
      have theirs := ran.isBy deed mem
      rw [s.refreshed_actor] at theirs
      exact theirs

/-- Nothing is done for an actor in a unit of work that begins nothing for the actor. -/
theorem Performs.without {j : Job} {x : Happening} (h : s.Performs j x)
    (leaves : j.Leaves a s.machine.signals) : x.Without a := by
  by_cases own : j.actor = a
  · obtain ⟨t, rfl, raised⟩ := leaves own
    rw [h.of_raised raised]
    refine ⟨fun _ _ _ none => (nomatch none), fun _ _ _ _ line => (nomatch line),
      fun _ none => (nomatch none), fun _ _ _ _ same _ => ?_⟩
    cases same
    exact ⟨rfl, rfl⟩
  · refine ⟨fun f b o ran mine => own ?_, fun n h' e deeds same mine => own ?_,
      fun d mem mine => own ?_, fun n t deeds fate same mine => absurd ?_ own⟩
    · exact (h.isBy _ ran).symm.trans mine
    · subst same
      cases h with
      | skipped _ | line _ _ => exact mine
    · rw [h.of_job.2.1] at mem
      cases j with
      | delayed d' =>
          rw [← mine, List.mem_singleton.mp mem]
          rfl
      | handler _ _ | iteration _ => cases mem
    · subst same
      cases h with
      | idle _ | turn _ _ => exact mine

end Session

namespace Job

variable {σ : Type} {s : Session σ} {a : ActorId} {extra : List Token}

/-- A unit of work of another begins nothing for an actor. -/
theorem leaves_run {j : Job} (leaves : j.Leaves a s.machine.signals) :
    s.machine.Leaves a (j.run s).machine := by
  cases j with
  | handler h e =>
      refine s.leaves_runHandler h fun own => ?_
      obtain ⟨_, iteration, -⟩ := leaves own
      cases iteration
  | delayed d =>
      refine s.leaves_runDelayed fun own => ?_
      obtain ⟨_, iteration, -⟩ := leaves own
      cases iteration
  | iteration t =>
      refine s.leaves_pollLoop fun own => ?_
      obtain ⟨_, iteration, raised⟩ := leaves own
      cases iteration
      exact raised

/-- Slots and loops stay in agreement, and the loop that was polled has gone back or is over. -/
theorem keeps_run (s : Session σ) (j : Job) : Machine.Keeps (j.polls.map LoopTask.token ++ extra) extra
    s.machine (j.run s).machine := by
  cases j with
  | handler h e => exact s.keeps_runHandler h e
  | delayed d => exact s.keeps_runDelayed d
  | iteration t => exact s.keeps_pollLoop t

/-- The line that a unit of work runs, with its event. -/
def lines : Job → List (Handler × Event)
  | .handler h e => [(h, e)]
  | _ => []

end Job

/-- The lines that still have to run for an event, with the event. -/
def Phase.lines : Phase → List (Handler × Event)
  | .events lines _ _ => lines
  | _ => []

theorem Phase.lines_of_first? {p p' : Phase} {j : Job} (first : p.first? = some (j, p')) :
    p.lines = j.lines ++ p'.lines := by
  cases p with
  | calm => cases first
  | events lines rest ticks =>
      cases lines with
      | nil => cases first
      | cons line lines =>
          cases first
          rfl
  | delays due =>
      cases due with
      | nil => cases first
      | cons d due =>
          cases first
          rfl
  | loops due =>
      cases due with
      | nil => cases first
      | cons t due =>
          cases first
          rfl

/-! ## Scripts and documents -/

/-- Saving a script of another owner leaves an owner's document. -/
theorem Filing.document?_save_of_ne {σ : Type} [Archive σ] [Filing σ] (archive : σ) {script : Script}
    {o : ActorId} (other : script.ownerId ≠ o) :
    document? (Archive.save archive script).2 o = document? archive o := by
  rcases tried : Archive.save archive script with ⟨e | ⟨⟩, archive'⟩
  · exact document?_failed tried o
  · exact (document?_saved tried o).trans (if_neg other)

namespace Session

variable {σ : Type} {s s' : Session σ} {a : ActorId} {apart : Prop}

/-- A departure leaves the scripts of others. -/
theorem before_depart [Archive σ] {b o : ActorId} {script : Script}
    (loaded : (s.depart b).2.scripts.get? o = some script) :
    o ≠ b ∧ s.scripts.get? o = some script := by
  rw [depart_eq] at loaded
  change (s.scripts.erase b).get? o = some script at loaded
  rw [Table.get?_erase] at loaded
  split at loaded
  · cases loaded
  · next other => exact ⟨Ne.symm other, loaded⟩

/-- Where scripts are kept under their owners, none that is left names an actor who has departed. -/
theorem Indexed.names_depart [Archive σ] (h : s.Indexed) {b o : ActorId} {script : Script}
    (loaded : (s.depart b).2.scripts.get? o = some script) : script.ownerId ≠ b := by
  obtain ⟨other, before⟩ := before_depart loaded
  rw [h.owners o script before]
  exact other

/-- No script is loaded for an actor, and, if scripts are kept apart by their owners, none that is
loaded for another actor names the actor. -/
structure Lacks (apart : Prop) (s : Session σ) (a : ActorId) : Prop where
  /-- None is loaded. -/
  script : s.scripts.get? a = none
  /-- None names the actor. -/
  names : apart → ∀ o script, s.scripts.get? o = some script → script.ownerId ≠ a

namespace Lacks

theorem of_scripts_eq (h : Lacks apart s a) (same : s'.scripts = s.scripts) : Lacks apart s' a := by
  constructor
  · rw [same, h.script]
  · rw [same]
    exact h.names

/-- Another actor's script is put in its place. -/
theorem insert (h : Lacks apart s a) {o : ActorId} {script : Script} (other : o ≠ a)
    (names : apart → script.ownerId ≠ a) (same : s'.scripts = s.scripts.insert o script) :
    Lacks apart s' a := by
  constructor
  · rw [same, Table.get?_insert_of_ne _ _ other, h.script]
  · intro kept o' script' loaded
    rw [same, Table.get?_insert] at loaded
    split at loaded
    · cases loaded
      exact names kept
    · exact h.names kept o' script' loaded

/-- An actor without a script is not the owner of a loaded one. -/
theorem ne_of_loaded (h : Lacks apart s a) {o : ActorId} {script : Script}
    (loaded : s.scripts.get? o = some script) : o ≠ a := by
  rintro rfl
  cases h.script.symm.trans loaded

theorem of_worksFor (h : Lacks apart s a) {o : ActorId} (works : WorksFor o s s') :
    Lacks apart s' a := by
  obtain ⟨g, own⟩ := works.own
  cases loaded : s.scripts.get? o with
  | none =>
      have same (o' : ActorId) : s'.scripts.get? o' = s.scripts.get? o' := by
        by_cases mine : o' = o
        · rw [mine, own, loaded]
          rfl
        · exact works.others o' mine
      exact h.of_scripts_eq (Table.ext same)
  | some script =>
      have names : apart → ({ script with globals := g script } : Script).ownerId ≠ a :=
        fun kept => h.names kept o script loaded
      refine h.insert (h.ne_of_loaded loaded) names (Table.ext fun o' => ?_)
      rw [Table.get?_insert]
      split
      · next mine => rw [← mine, own, loaded, Option.map_some]
      · next mine => exact works.others o' (Ne.symm mine)

theorem setLineEnabled (h : Lacks apart s a) {o : ActorId} {line : Nat} {enabled : Bool}
    (done : s.setLineEnabled o line enabled = .ok s') :
    Lacks apart s' a ∧ s'.archive = s.archive := by
  unfold Session.setLineEnabled at done
  cases loaded : s.scripts.get? o with
  | none =>
      rw [loaded] at done
      cases done
  | some script =>
      rw [loaded] at done
      dsimp only at done
      split at done
      · cases done
        have names : apart → script.ownerId ≠ a := fun kept => h.names kept o script loaded
        refine ⟨h.insert (h.ne_of_loaded loaded) ?_ rfl, rfl⟩
        exact names
      · cases done

theorem install (h : Lacks apart s a) {script : Script} (done : s.install script = .ok s')
    (other : script.ownerId ≠ a) : Lacks apart s' a ∧ s'.archive = s.archive := by
  unfold Session.install at done
  split at done
  · cases done
  · cases done
    have names : script.rebuildFunctions.ownerId ≠ a := other
    exact ⟨h.insert names (fun _ => names) rfl, rfl⟩

section Archive

variable [Archive σ]

/-- What an honest archive has under another owner does not name the actor. -/
theorem ensureLoaded (h : Lacks apart s a) (honest : Archive.Honest s.archive) {o : ActorId}
    {found : Bool} (other : o ≠ a) (loaded : s.ensureLoaded o = .ok (found, s')) :
    Lacks apart s' a ∧ s'.archive = s.archive := by
  rcases ensureLoaded_eq_ok_iff.mp loaded with ⟨_, -, -, rfl⟩ | ⟨-, -, -, rfl⟩ |
    ⟨script, supply, -, kept, -, rfl⟩
  · exact ⟨h, rfl⟩
  · exact ⟨h, rfl⟩
  · have own : script.rebuildFunctions.ownerId = o := honest o _ script supply kept
    exact ⟨h.insert other (fun _ => own ▸ other) rfl, rfl⟩

/-- An edit puts a script in its place that does not name the actor, if scripts are kept apart. -/
theorem edit (h : Lacks apart s a) (honest : Archive.Honest s.archive) {o : ActorId}
    {change : Script → Script} (other : o ≠ a) (done : s.edit o change = .ok s')
    (names : apart → ∀ script, s'.scripts.get? o = some script → script.ownerId ≠ a) :
    Lacks apart s' a ∧ s'.archive = s.archive := by
  obtain ⟨found, s₁, loading, rfl⟩ := edit_eq_ok_iff.mp done
  obtain ⟨lacks, archive⟩ := h.ensureLoaded honest other loading
  exact ⟨lacks.insert other (fun kept => names kept _ (Table.get?_insert_self _ _ _)) rfl, archive⟩

theorem depart (h : Lacks apart s a) (b : ActorId) : Lacks apart (s.depart b).2 a := by
  refine ⟨?_, fun kept o script loaded => h.names kept o script (before_depart loaded).2⟩
  cases loaded : (s.depart b).2.scripts.get? a with
  | none => rfl
  | some script => cases h.script.symm.trans (before_depart loaded).2

variable [Filing σ]

/-- Whoever departs, the document of the actor stays. -/
theorem document?_depart (h : Lacks apart s a) (kept : apart) (b : ActorId) :
    Filing.document? (s.depart b).2.archive a = Filing.document? s.archive a := by
  rw [depart_eq]
  cases loaded : s.scripts.get? b with
  | none => rfl
  | some script => exact Filing.document?_save_of_ne s.archive (h.names kept b script loaded)

/-- The turns of some owners leave the document of the actor. -/
theorem document?_foldl_flushOne (kept : apart) (order : List ActorId) {f : Flush σ}
    (h : Lacks apart f.session a) :
    Filing.document? (order.foldl flushOne f).session.archive a =
      Filing.document? f.session.archive a := by
  induction order generalizing f with
  | nil => rfl
  | cons o order ih =>
      rw [List.foldl_cons]
      rcases flushOne_cases f o with ⟨-, same⟩ | ⟨script, archive, loaded, tried, same⟩ |
        ⟨script, archive, e, loaded, tried, same⟩
      · rw [same]
        exact ih h
      · have saved := Filing.document?_save_of_ne f.session.archive (h.names kept o script loaded)
        rw [tried] at saved
        rw [same]
        refine (ih ?_).trans saved
        exact h.of_scripts_eq rfl
      · have saved := Filing.document?_save_of_ne f.session.archive (h.names kept o script loaded)
        rw [tried] at saved
        rw [same]
        refine (ih ?_).trans saved
        exact h.of_scripts_eq rfl

/-- Saving everything that is marked leaves the document of the actor. -/
theorem flush (h : Lacks apart s a) : Lacks apart s.flush.2 a ∧
    (apart → Filing.document? s.flush.2.archive a = Filing.document? s.archive a) := by
  have emptied : Lacks apart { s with dirty := {} } a := h.of_scripts_eq rfl
  rw [flush_eq_flushIn, flushIn_session]
  refine ⟨h.of_scripts_eq (turns s.dirty.keys { session := { s with dirty := {} } }).scripts, ?_⟩
  intro kept
  exact document?_foldl_flushOne kept s.dirty.keys (f := { session := { s with dirty := {} } }) emptied

end Archive

end Lacks

end Session

/-! ## Loops that are told to stop -/

/-- A loop that was told to stop frees no slot. -/
theorem Registry.release_of_raised {held : List Token} {slots : LoopSlots} {signals : Signals}
    (h : Registry held slots signals) {k : Token} (mem : k ∈ held)
    (raised : signals.isRaised k.2.signal = true) : slots.release k.1 k.2.id = slots := by
  unfold LoopSlots.release
  cases found : slots.active.get? k.1 with
  | none => rfl
  | some handle =>
      obtain ⟨mem', live⟩ := h.taken k.1 handle found
      refine if_neg fun number => ?_
      -- the loop with the number is the one that was told to stop, and the slot's was not
      have same := h.eq_of_number mem' mem number
      rw [← same, live] at raised
      cases raised

/-- A context that has been refreshed and has run nothing commits what it was refreshed from. -/
theorem Context.commit_refresh (c : Context) (globals : Table String Scalar) :
    (c.refresh globals).commit globals = globals := by
  refine Table.ext fun n => ?_
  cases kind : isTransient n with
  | true => exact get?_commit_transient _ globals kind
  | false =>
      rw [get?_commit _ globals kind, refresh_locals c globals kind]
      rfl

namespace Session

variable {σ : Type} {s : Session σ}

theorem commit_refreshed (s : Session σ) (c : Context) :
    s.commit c.frame.actor (s.refreshed c) = s ∨
      s.commit c.frame.actor (s.refreshed c) = s.markDirty c.frame.actor := by
  unfold commit refreshed
  cases loaded : s.scripts.get? c.frame.actor with
  | none => exact .inl rfl
  | some script =>
      refine .inr ?_
      have same : s.scripts.insert c.frame.actor script = s.scripts :=
        Table.ext fun o => by
          rw [Table.get?_insert]
          split
          · next own => rw [← own, loaded]
          · rfl
      dsimp only
      rw [Context.commit_refresh, same]

/-- A session takes no notice of a loop that was told to stop: polling the loop makes no iteration
and changes nothing, except that the script of the actor is marked if there is one. -/
structure Ignores (s : Session σ) (t : LoopTask) : Prop where
  /-- There is no iteration. -/
  idle : ∀ x, s.Performs (.iteration t) x → x = .turn s.machine.agenda.tick t [] .idle
  /-- Nothing changes. -/
  same : s.pollLoop t = s ∨ s.pollLoop t = s.markDirty t.actor

/-- Where slots and loops agree, a loop that was told to stop is ignored. -/
theorem ignores_of_raised {held : List Token} {t : LoopTask}
    (registry : Registry held s.machine.slots s.machine.signals) (mem : t.token ∈ held)
    (raised : s.machine.signals.isRaised t.handle.signal = true) : s.Ignores t := by
  have released : s.machine.slots.release t.actor t.handle.id = s.machine.slots :=
    registry.release_of_raised mem raised
  refine ⟨fun x done => done.of_raised raised, ?_⟩
  rw [pollLoop_of_raised raised, released]
  exact s.commit_refreshed t.context

end Session

end Blockwork
