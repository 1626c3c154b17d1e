import Blockwork.Proofs.Session.Behalf

/-!
# What is left of an actor who departs

A departure stops the loop of the actor and drops the bodies that the actor has put off.  The loops
themselves stay on the agenda until they are next polled, and by then the actor may have come back,
with the script loaded again and another loop in the slot.

`departed_silent` has it all.  Until there is an event of the actor or a script is brought in
for the actor, the actor is `Gone`, whatever others do and however many ticks pass.  In a `Lawful` course
the document stays besides.  And whatever happens, the actor's return included, a session `Ignores` the loops
that were left behind.

A course is lawful if no edit makes the script of an owner name another.  Such a script is saved as the
document of whom it names, although it is not that actor's, and so a document is overwritten while
its owner is away (`departed_overwritten`).

## What is load-bearing

* `Away` is the invariant of the first two parts.  Departing brings it about (`away_departed`), and every
  step that is not the actor's preserves it (`Away.step`).
* `Lawful.indexed`: in a lawful course every script is kept for the owner that it names, so none that is left
  names the one who departs.
* `Reached.registry` is the invariant of the last part, of which the others have no need.  It speaks
  of all loops, so it holds whoever comes back, as long as numbers of loops have not begun anew.
-/

namespace Blockwork

/-! ## An actor who is away -/

namespace Chronicle

variable {σ : Type} {a : ActorId} {apart : Prop}

/-- An actor is away: the actor has no slot and no script, nothing waits to be done on the actor's
behalf, and the loops that are left have been told to stop. -/
structure Away (apart : Prop) (a : ActorId) (c : Chronicle σ) : Prop where
  /-- The slot is free. -/
  slot : c.session.machine.slots.active.get? a = none
  /-- Loops have been told to stop. -/
  loops : ∀ t ∈ c.loops, t.actor = a → c.session.machine.signals.isRaised t.handle.signal = true
  /-- No body waits. -/
  bodies : ∀ d ∈ c.phase.owed ++ c.agenda.delays, d.actor ≠ a
  /-- No line waits. -/
  lines : ∀ l ∈ c.phase.lines, l.2.actor ≠ a
  /-- There is no script. -/
  scripts : c.session.Lacks apart a

namespace Away

variable {s s' : Session σ} {p p' : Phase} {past past' : List Happening}

/-- Nothing is begun for the actor, and nothing comes into the hands of the phase. -/
theorem of_leaves (h : Away apart a ⟨s, p, past⟩) (leaves : s.machine.Leaves a s'.machine)
    (polls : ∀ t ∈ p'.polls, t ∈ p.polls) (owed : ∀ d ∈ p'.owed, d ∈ p.owed)
    (lines : ∀ l ∈ p'.lines, l.2.actor ≠ a) (scripts : s'.Lacks apart a) :
    Away apart a ⟨s', p', past'⟩ where
  slot := leaves.slot h.slot
  loops t mem own := by
    refine leaves.raised _ (h.loops t ?_ own)
    rcases List.mem_append.mp mem with mem | mem
    · exact List.mem_append_left _ (polls t mem)
    · exact List.mem_append_right _ (leaves.loops t mem own)
  bodies d mem own := by
    refine h.bodies d ?_ own
    rcases List.mem_append.mp mem with mem | mem
    · exact List.mem_append_left _ (owed d mem)
    · exact List.mem_append_right _ (leaves.delays d mem own)
  lines := lines
  scripts := scripts

/-- The host or the world does something, whatever the session is in the middle of. -/
theorem of_machine (h : Away apart a ⟨s, p, past⟩) (leaves : s.machine.Leaves a s'.machine)
    (scripts : s'.Lacks apart a) : Away apart a ⟨s', p, past'⟩ :=
  h.of_leaves leaves (fun _ mem => mem) (fun _ mem => mem) h.lines scripts

/-- The session goes on to events, or is done with them. -/
theorem of_phase (h : Away apart a ⟨s, p, past⟩) (machine : s'.machine = s.machine)
    (polls : p'.polls = []) (owed : p'.owed = []) (lines : ∀ l ∈ p'.lines, l.2.actor ≠ a)
    (scripts : s'.Lacks apart a) : Away apart a ⟨s', p', past'⟩ := by
  refine h.of_leaves ?_ ?_ ?_ lines scripts
  · rw [machine]
  · rw [polls]
    exact fun _ none => nomatch none
  · rw [owed]
    exact fun _ none => nomatch none

/-- Of the work in hand, only loops that were told to stop are the actor's. -/
theorem leaves_first {j : Job} (h : Away apart a ⟨s, p, past⟩) (first : p.first? = some (j, p')) :
    j.Leaves a s.machine.signals := by
  intro own
  obtain ⟨owed, polls, -⟩ := Phase.first?_eq_some first
  have lines := Phase.lines_of_first? first
  cases j with
  | handler handler e =>
      refine absurd own (h.lines (handler, e) ?_)
      show _ ∈ p.lines
      rw [lines]
      exact List.mem_cons_self ..
  | delayed d =>
      refine absurd own (h.bodies d (List.mem_append_left _ ?_))
      show _ ∈ p.owed
      rw [owed]
      exact List.mem_cons_self ..
  | iteration t =>
      refine ⟨t, rfl, h.loops t (List.mem_append_left _ ?_) own⟩
      show _ ∈ p.polls
      rw [polls]
      exact List.mem_cons_self ..

/-- A unit of work is done. -/
theorem unit {j : Job} (h : Away apart a ⟨s, p, past⟩) (first : p.first? = some (j, p')) :
    Away apart a ⟨j.run s, p', past'⟩ := by
  obtain ⟨owed, polls, -⟩ := Phase.first?_eq_some first
  have lines := Phase.lines_of_first? first
  refine h.of_leaves (Job.leaves_run (h.leaves_first first)) ?_ ?_ ?_
    (h.scripts.of_worksFor (j.run_worksFor s))
  · rw [polls]
    exact fun _ => List.mem_append_right _
  · rw [owed]
    exact fun _ => List.mem_append_right _
  · intro l mem
    refine h.lines l ?_
    show l ∈ p.lines
    rw [lines]
    exact List.mem_append_right _ mem

/-- The bodies that are due come out of the agenda. -/
theorem advance (h : Away apart a ⟨s, .events [] [] true, past⟩) : Away apart a
    ⟨{ s with machine := { s.machine with agenda := s.machine.agenda.advance.takeDelays.2 } },
      .delays s.machine.agenda.advance.takeDelays.1, past⟩ where
  slot := h.slot
  loops := h.loops
  bodies d mem := by
    refine h.bodies d (List.mem_append_right _ ?_)
    rcases List.mem_append.mp mem with mem | mem
    · exact (List.mem_filter.mp mem).1
    · exact (List.mem_filter.mp mem).1
  lines _ none := nomatch none
  scripts := h.scripts.of_scripts_eq rfl

/-- The loops that are due come out of the agenda. -/
theorem poll (h : Away apart a ⟨s, .delays [], past⟩) : Away apart a
    ⟨{ s with machine := { s.machine with agenda := s.machine.agenda.takeLoops.2 } },
      .loops s.machine.agenda.takeLoops.1, past⟩ where
  slot := h.slot
  loops t mem := by
    refine h.loops t (List.mem_append_right _ ?_)
    rcases List.mem_append.mp mem with mem | mem
    · exact (List.mem_filter.mp mem).1
    · exact (List.mem_filter.mp mem).1
  bodies := h.bodies
  lines _ none := nomatch none
  scripts := h.scripts.of_scripts_eq rfl

end Away

/-! ## Departures -/

section Departed

variable [Archive σ] {c c' : Chronicle σ}

/-- What comes of a session from which an actor departs. -/
def departed (s : Session σ) (past : List Happening) (a : ActorId) : Chronicle σ :=
  ⟨(s.depart a).2, .calm, past ++
    [.departure s.machine.agenda.tick a (s.machine.agenda.delays.filter fun d => d.actor == a)]⟩

/-- Loops of an actor who has departed have been told to stop. -/
theorem isRaised_depart (s : Session σ) {t : LoopTask} (mem : t ∈ s.machine.agenda.loops)
    (own : t.actor = a) : (s.depart a).2.machine.signals.isRaised t.handle.signal = true := by
  rw [Session.depart_eq]
  refine (Signals.isRaised_foldl_raise _ _ _).mpr (.inr ⟨t, List.mem_filter.mpr ⟨?_, ?_⟩, rfl⟩)
  · rw [(Machine.Idle.requestStop s.machine a).agenda]
    exact mem
  · exact beq_iff_eq.mpr own

/-- An actor who has departed is away. -/
theorem away_departed (s : Session σ) (past : List Happening) (a : ActorId)
    (names : apart → ∀ o script, (s.depart a).2.scripts.get? o = some script → script.ownerId ≠ a) :
    Away apart a (departed s past a) where
  slot := by
    show (s.depart a).2.machine.slots.active.get? a = none
    rw [Session.depart_eq]
    show (s.machine.requestStop a).2.slots.active.get? a = none
    rcases s.machine.requestStop_cases a with ⟨free, same⟩ | ⟨handle, -, same⟩
    · rw [same]
      exact free
    · rw [same]
      exact (Table.get?_erase ..).trans (if_pos rfl)
  loops t mem own := by
    have agenda := s.depart_agenda a
    refine isRaised_depart s ?_ own
    change t ∈ [] ++ (s.depart a).2.machine.agenda.loops at mem
    rw [agenda] at mem
    exact mem
  bodies d mem own := by
    have agenda := s.depart_agenda a
    change d ∈ [] ++ (s.depart a).2.machine.agenda.delays at mem
    rw [agenda] at mem
    have other := (List.mem_filter.mp mem).2
    rw [own] at other
    simp at other
  lines _ none := nomatch none
  scripts := by
    refine ⟨?_, names⟩
    show (s.depart a).2.scripts.get? a = none
    rw [Session.depart_eq]
    show (s.scripts.erase a).get? a = none
    rw [Table.get?_erase, if_pos rfl]

theorem Proceeds.keeps (h : Proceeds c c') :
    Machine.Keeps (c.phase.polls.map LoopTask.token) (c'.phase.polls.map LoopTask.token)
      c.session.machine c'.session.machine := by
  cases h with
  | tend done =>
      obtain ⟨effects, same⟩ := done.machine_eq
      rw [same]
      exact .of_eq rfl rfl rfl
  | depart b =>
      rw [Session.depart_eq]
      exact .depart _ b
  | stop b => exact .of_change (.stop _)
  | world w => exact .of_eq rfl rfl rfl
  | queue e | event e | tick | refuse failed | eventDone | tickDone => exact .refl _ _
  | load loaded =>
      rw [Session.ensureLoaded_machine loaded]
      exact .refl _ _
  | unit first done =>
      obtain ⟨-, polls, -⟩ := Phase.first?_eq_some first
      rw [polls, List.map_append]
      exact Job.keeps_run _ _
  | advance => exact .of_eq rfl rfl rfl
  | @poll s past =>
      have taken : Machine.Keeps [] (s.machine.agenda.takeLoops.1.map LoopTask.token ++ []) _ _ :=
        .takeLoops s.machine
      rwa [List.append_nil] at taken

theorem ages_of_proceeds (run : Relation.ReflTransGen Proceeds c c') :
    c.session.machine.Ages c'.session.machine := by
  induction run with
  | refl => exact .refl _
  | tail _ next ih => exact ih.trans next.keeps.ages

theorem Reached.steps (reached : Reached c) (run : Relation.ReflTransGen Proceeds c c') :
    Reached c' := by
  induction run with
  | refl => exact reached
  | tail _ next ih => exact ih.step next

/-- In whatever a session is in the middle of, the slots agree with the loops there are. -/
theorem Reached.registry (reached : Reached c)
    (few : c.session.machine.slots.started < UInt32.size) :
    Registry (c.loops.map LoopTask.token) c.session.machine.slots c.session.machine.signals := by
  have sound : Machine.Sound (c.phase.polls.map LoopTask.token) c.session.machine := by
    induction reached with
    | start limits world effects archive => exact fun _ => .empty
    | step _ next ih => exact next.keeps.sound (ih (Nat.lt_of_le_of_lt next.keeps.ages.started few))
  have registry := sound few
  rwa [Machine.tokens, ← List.map_append] at registry

end Departed

/-! ## Lawful courses -/

section Lawful

variable [Archive σ] {c c' : Chronicle σ}

/-- An edit after which the script of an owner names another. -/
inductive Renames : Chronicle σ → Chronicle σ → Prop where
  | edit {s s' : Session σ} {past : List Happening} {owner : ActorId} {change : Script → Script}
      {script : Script} (done : s.edit owner change = .ok s')
      (edited : s'.scripts.get? owner = some script) (other : script.ownerId ≠ owner) :
      Renames ⟨s, .calm, past⟩ ⟨s', .calm, past⟩

/-- The courses in which no edit makes a script name another owner, over an archive that is honest all the
time. -/
inductive Lawful : Chronicle σ → Prop where
  | start (limits : Limits) (world : World) (effects : Effects) {archive : σ}
      (honest : Archive.Honest archive) : Lawful ⟨.start limits world effects archive, .calm, []⟩
  | step {c c' : Chronicle σ} (before : Lawful c) (next : Proceeds c c') (keeps : ¬ Renames c c')
      (honest : Archive.Honest c'.session.archive) : Lawful c'

theorem Lawful.honest (h : Lawful c) : Archive.Honest c.session.archive := by
  cases h with
  | start _ _ _ honest => exact honest
  | step _ _ _ honest => exact honest

theorem Lawful.steps (h : Lawful c) (run : Relation.ReflTransGen
    (fun c c' => Proceeds c c' ∧ ¬ Renames c c' ∧ Archive.Honest c'.session.archive) c c') : Lawful c' := by
  induction run with
  | refl => exact h
  | tail _ next ih => exact ih.step next.1 next.2.1 next.2.2

/-- A lawful step keeps scripts under the owners that they name. -/
theorem Proceeds.indexed (h : Proceeds c c') (indexed : c.session.Indexed)
    (honest : Archive.Honest c.session.archive) (keeps : ¬ Renames c c') : c'.session.Indexed := by
  cases h with
  | tend done =>
      cases done with
      | install done => exact indexed.install done
      | edit done =>
          refine indexed.edit_of_owner honest done fun script edited => ?_
          by_contra other
          exact keeps (.edit done edited other)
      | setLineEnabled done => exact indexed.setLineEnabled done
      | load done => exact (indexed.ensureLoaded honest done).1
      | flush => exact indexed.flush
      | around _ _ _ _ => exact indexed.of_eq rfl rfl
  | depart b => exact indexed.depart b
  | stop _ | world _ | queue _ | tick | advance | poll => exact indexed.of_eq rfl rfl
  | event _ | refuse _ | eventDone | tickDone => exact indexed
  | load loaded => exact (indexed.ensureLoaded honest loaded).1
  | @unit s p p' past j x first done => exact indexed.of_worksFor (j.run_worksFor s)

/-- In a lawful course every script is kept under the owner that it names. -/
theorem Lawful.indexed (h : Lawful c) : c.session.Indexed := by
  induction h with
  | start _ _ _ _ => exact .start ..
  | step before next keeps _ ih => exact next.indexed ih before.honest keeps

/-- Where scripts are under the owners that they name, none has been renamed. -/
theorem not_renames_of_indexed (indexed : c'.session.Indexed) : ¬ Renames c c' := by
  rintro ⟨-, edited, other⟩
  exact other (indexed.owners _ _ edited)

end Lawful

/-! ## What others do -/

variable [Archive σ] [Filing σ] {c c' c'' : Chronicle σ}

/-- Steps that are an actor's: an event of the actor is handed over, the script of the actor is
installed, edited or loaded, or the actor's document is changed from outside. -/
inductive Concerns (a : ActorId) : Chronicle σ → Chronicle σ → Prop where
  /-- An event of the actor is handed over. -/
  | event {s s' : Session σ} {past : List Happening} {e : Event} {rest : List Event} {ticks : Bool}
      {lines : List (Handler × Event)} (own : e.actor = a) :
      Concerns a ⟨s, .events [] (e :: rest) ticks, past⟩ ⟨s', .events lines rest ticks, past⟩
  /-- A script of the actor is installed. -/
  | install {s s' : Session σ} {past : List Happening} {script : Script}
      (done : s.install script = .ok s') (own : script.ownerId = a) :
      Concerns a ⟨s, .calm, past⟩ ⟨s', .calm, past⟩
  /-- The script of the actor is edited. -/
  | edit {s s' : Session σ} {past : List Happening} {change : Script → Script}
      (done : s.edit a change = .ok s') : Concerns a ⟨s, .calm, past⟩ ⟨s', .calm, past⟩
  /-- The actor's script is loaded, which a session itself does only for an event or an edit. -/
  | load {s s' : Session σ} {past : List Happening} (done : s.ensureLoaded a = .ok (true, s')) :
      Concerns a ⟨s, .calm, past⟩ ⟨s', .calm, past⟩
  /-- The archive is changed from outside, and the actor's document with it. -/
  | document {s : Session σ} {past : List Happening} {effects : Effects} {archive : σ}
      {supply : Uuid.Supply} {now : Timestamp}
      (changed : Filing.document? archive a ≠ Filing.document? s.archive a) :
      Concerns a ⟨s, .calm, past⟩ ⟨{ s with
        machine := { s.machine with effects := effects }
        archive := archive
        supply := supply
        now := now }, .calm, past⟩

/-- A step that is not an actor's, over an archive that has under an owner only scripts of that
owner. -/
structure Spares (a : ActorId) (c c' : Chronicle σ) : Prop where
  /-- It is a step. -/
  next : Proceeds c c'
  /-- It is not the actor's. -/
  other : ¬ Concerns a c c'
  /-- The archive is honest. -/
  honest : Archive.Honest c.session.archive

/-- What happens from one moment to another leaves an actor alone. -/
structure Quiet (apart : Prop) (a : ActorId) (c c' : Chronicle σ) : Prop where
  /-- The document stays, if scripts are kept apart. -/
  document : apart → Filing.document? c'.session.archive a = Filing.document? c.session.archive a
  /-- Nothing is done on the actor's behalf. -/
  silent : ∃ news, c'.history = c.history ++ news ∧ ∀ x ∈ news, x.Without a

namespace Quiet

@[refl] theorem refl (c : Chronicle σ) : Quiet apart a c c :=
  ⟨fun _ => rfl, [], (List.append_nil _).symm, fun _ none => nomatch none⟩

theorem trans (h : Quiet apart a c c') (h' : Quiet apart a c' c'') : Quiet apart a c c'' := by
  obtain ⟨news, past, silent⟩ := h.silent
  obtain ⟨news', past', silent'⟩ := h'.silent
  refine ⟨fun kept => (h'.document kept).trans (h.document kept), news ++ news', ?_, ?_⟩
  · rw [past', past, List.append_assoc]
  · exact List.forall_mem_append.mpr ⟨silent, silent'⟩

variable {s s' : Session σ} {p p' : Phase} {past : List Happening}

/-- A step in which nothing happens. -/
theorem of_document
    (same : apart → Filing.document? s'.archive a = Filing.document? s.archive a) :
    Quiet apart a ⟨s, p, past⟩ ⟨s', p', past⟩ :=
  ⟨same, [], (List.append_nil _).symm, fun _ none => nomatch none⟩

/-- A step in which something happens without the actor. -/
theorem of_without {x : Happening} (without : x.Without a)
    (same : apart → Filing.document? s'.archive a = Filing.document? s.archive a) :
    Quiet apart a ⟨s, p, past⟩ ⟨s', p', past ++ [x]⟩ :=
  ⟨same, [x], rfl, fun _ mem => List.mem_singleton.mp mem ▸ without⟩

end Quiet

variable {s s' : Session σ} {past : List Happening}

/-- What a host does to the scripts of others leaves an actor without a script, and the actor's
document as it is. -/
theorem lacks_tends (h : s.Lacks apart a) (honest : Archive.Honest s.archive) (done : s.Tends s')
    (other : ¬ Concerns a ⟨s, .calm, past⟩ ⟨s', .calm, past⟩)
    (keeps : apart → ¬ Renames ⟨s, .calm, past⟩ ⟨s', .calm, past⟩) : s'.Lacks apart a ∧
      (apart → Filing.document? s'.archive a = Filing.document? s.archive a) := by
  have unsaved {s' : Session σ} (result : s'.Lacks apart a ∧ s'.archive = s.archive) :
      s'.Lacks apart a ∧
        (apart → Filing.document? s'.archive a = Filing.document? s.archive a) :=
    ⟨result.1, fun _ => congrArg (Filing.document? · a) result.2⟩
  cases done with
  | install done => exact unsaved (h.install done fun own => other (.install done own))
  | @edit owner change _ done =>
      have theirs : owner ≠ a := by
        rintro rfl
        exact other (.edit done)
      refine unsaved (h.edit honest theirs done fun kept script edited own => ?_)
      exact keeps kept (.edit done edited fun same => theirs (same.symm.trans own))
  | setLineEnabled done => exact unsaved (h.setLineEnabled done)
  | @load owner found _ done =>
      by_cases own : owner = a
      · subst own
        cases found with
        | true => exact absurd (.load done) other
        | false =>
            rcases Session.ensureLoaded_eq_ok_iff.mp done with ⟨_, -, found, -⟩ | ⟨-, -, -, rfl⟩ |
              ⟨_, _, -, -, found, -⟩
            · cases found
            · exact unsaved ⟨h, rfl⟩
            · cases found
      · exact unsaved (h.ensureLoaded honest own done)
  | flush => exact h.flush
  | around effects archive supply now =>
      refine ⟨h.of_scripts_eq rfl, fun _ => ?_⟩
      by_contra changed
      exact other (.document changed)

/-- A step that is not the actor's leaves the actor alone. -/
theorem Away.step (h : Away apart a c) (spares : Spares a c c') (keeps : apart → ¬ Renames c c') :
    Away apart a c' ∧ Quiet apart a c c' := by
  obtain ⟨next, other, honest⟩ := spares
  have unsaved {s s' : Session σ} (archive : s'.archive = s.archive) :
      apart → Filing.document? s'.archive a = Filing.document? s.archive a :=
    fun _ => congrArg (Filing.document? · a) archive
  cases next with
  | tend done =>
      obtain ⟨scripts, document⟩ := lacks_tends h.scripts honest done other keeps
      exact ⟨h.of_machine done.leaves scripts, .of_document document⟩
  | @depart s past b =>
      refine ⟨h.of_machine ?_ (h.scripts.depart b), .of_without ?_ (h.scripts.document?_depart · b)⟩
      · rw [Session.depart_eq]
        exact .depart a s.machine b
      · exact ⟨fun _ _ _ none => (nomatch none), fun _ _ _ _ line => (nomatch line),
          fun _ none => (nomatch none), fun _ _ _ _ turn => (nomatch turn)⟩
  | @stop s p past b =>
      exact ⟨h.of_machine (.requestStop a s.machine b) (h.scripts.of_scripts_eq rfl),
        .of_document (unsaved rfl)⟩
  | world w =>
      exact ⟨h.of_machine (.of_eq rfl rfl rfl) (h.scripts.of_scripts_eq rfl),
        .of_document (unsaved rfl)⟩
  | queue e =>
      exact ⟨h.of_machine (.refl a _) (h.scripts.of_scripts_eq rfl), .of_document (unsaved rfl)⟩
  | event e =>
      exact ⟨h.of_phase rfl rfl rfl (fun _ none => nomatch none) h.scripts, .of_document (unsaved rfl)⟩
  | tick =>
      refine ⟨h.of_phase rfl rfl rfl (fun _ none => nomatch none) (h.scripts.of_scripts_eq rfl),
        .of_document (unsaved rfl)⟩
  | refuse failed =>
      exact ⟨h.of_phase rfl rfl rfl (fun _ none => nomatch none) h.scripts, .of_document (unsaved rfl)⟩
  | @load s s' past e rest ticks found loaded =>
      have theirs : e.actor ≠ a := fun own => other (.event own)
      obtain ⟨scripts, archive⟩ := h.scripts.ensureLoaded honest theirs loaded
      refine ⟨h.of_phase (Session.ensureLoaded_machine loaded) rfl rfl ?_ scripts,
        .of_document (unsaved archive)⟩
      intro l mem
      obtain ⟨handler, -, rfl⟩ := List.mem_map.mp mem
      exact theirs
  | @unit s p p' past j x first done =>
      exact ⟨h.unit first,
        .of_without (done.without (h.leaves_first first)) (unsaved (j.run_worksFor s).archive)⟩
  | eventDone =>
      exact ⟨h.of_phase rfl rfl rfl (fun _ none => nomatch none) h.scripts, .of_document (unsaved rfl)⟩
  | advance => exact ⟨h.advance, .of_document (unsaved rfl)⟩
  | poll => exact ⟨h.poll, .of_document (unsaved rfl)⟩
  | tickDone =>
      exact ⟨h.of_phase rfl rfl rfl (fun _ none => nomatch none) h.scripts, .of_document (unsaved rfl)⟩

/-- Whatever others do, the actor stays away. -/
theorem Away.steps (h : Away apart a c)
    (run : Relation.ReflTransGen (fun c c' => Spares a c c' ∧ (apart → ¬ Renames c c')) c c') :
    Away apart a c' ∧ Quiet apart a c c' := by
  induction run with
  | refl => exact ⟨h, .refl c⟩
  | tail _ next ih =>
      obtain ⟨away, quiet⟩ := ih.1.step next.1 next.2
      exact ⟨away, ih.2.trans quiet⟩

/-! ## What is left -/

/-- Nothing of an actor who has departed is left but loops that do nothing. -/
structure Gone (a : ActorId) (before after : Chronicle σ) : Prop where
  /-- The slot is free. -/
  slot : after.session.machine.slots.active.get? a = none
  /-- The script is not loaded. -/
  script : after.session.scripts.get? a = none
  /-- Nothing is done on the actor's behalf. -/
  silent : ∃ news, after.history = before.history ++ news ∧ ∀ x ∈ news, x.Without a

/-- **An actor who departs is gone.**  Whatever others do, however many ticks pass, and until an
event of the actor is handed over or a script is brought in for the actor, the actor has no slot and
no script, and nothing is done on the actor's behalf.

**The actor's document stays** in courses in which edits leave scripts with their owners.

Whatever happens, the actor's return included, and as long as numbers of loops have not begun anew,
the loops that the actor has left behind are ignored when they are polled: they make no iteration,
write no variable and free no slot. -/
theorem departed_silent {s : Session σ} {past : List Happening} (reached : Reached ⟨s, .calm, past⟩)
    (a : ActorId) :
    (∀ c, Relation.ReflTransGen (Spares a) (departed s past a) c → Gone a (departed s past a) c) ∧
      (Lawful ⟨s, .calm, past⟩ → ∀ c,
        Relation.ReflTransGen (fun c c' => Spares a c c' ∧ ¬ Renames c c') (departed s past a) c →
        Filing.document? c.session.archive a =
          Filing.document? (departed s past a).session.archive a) ∧
      ∀ c, Relation.ReflTransGen Proceeds (departed s past a) c →
        c.session.machine.slots.started < UInt32.size →
        ∀ t ∈ s.machine.agenda.loops, t.actor = a →
          ∀ u due, u.token = t.token → c.phase = .loops (u :: due) → c.session.Ignores u := by
  refine ⟨fun c run => ?_, fun lawful c run => ?_, fun c run few t mem own u due same phase => ?_⟩
  · have away : Away False a (departed s past a) := away_departed s past a False.elim
    obtain ⟨away, quiet⟩ := away.steps (run.lift id fun _ _ spares => ⟨spares, False.elim⟩)
    exact ⟨away.slot, away.scripts.script, quiet.silent⟩
  · have away : Away True a (departed s past a) :=
      away_departed s past a fun _ _ _ => lawful.indexed.names_depart
    obtain ⟨-, quiet⟩ := away.steps (run.lift id fun _ _ next => ⟨next.1, fun _ => next.2⟩)
    exact quiet.document trivial
  · have later : Reached c := (reached.step (.depart a)).steps run
    have waits : u ∈ c.loops := by
      rw [loops, phase]
      exact List.mem_cons_self ..
    have raised := (ages_of_proceeds run).raised _ (isRaised_depart s mem own)
    have handle : u.handle = t.handle := congrArg Prod.snd same
    rw [← handle] at raised
    exact Session.ignores_of_raised (later.registry few) (List.mem_map_of_mem waits) raised

/-! ## A loop that is left behind -/

/-- A session in which the owner's script with a loop has been installed. -/
def equipped (s : Session MemoryArchive) : Session MemoryArchive := s.holding Moment.loopScript

theorem install_equipped (s : Session MemoryArchive) :
    s.install Moment.loopScript = .ok (equipped s) := by
  have valid : Moment.loopScript.problems = [] := by decide +kernel
  exact Session.install_eq_ok valid

/-- The owner has joined, and the loop has begun. -/
def looping : Session MemoryArchive :=
  (equipped (.start {} Session.lonely .refusing {})).runHandler ⟨0, ⟨1⟩, 0⟩ Session.joined

/-- The owner has departed. -/
def left : Session MemoryArchive := (looping.depart ⟨1⟩).2

/-- The script is installed again, and the owner joins again. -/
def returned : Session MemoryArchive := (equipped left).runHandler ⟨1, ⟨1⟩, 0⟩ Session.joined

/-- A session that has begun a tick and taken out what is due, no event being there. -/
def polling (s : Session σ) : Session σ :=
  { s with
    inbox := []
    machine := { s.machine with agenda := s.machine.agenda.advance.takeDelays.2.takeLoops.2 } }

/-- The line that waits for the owner runs when the owner joins. -/
theorem steps_joined {s : Session MemoryArchive} {h : Handler} (past : List Happening)
    (waits : s.handlers.matching Session.joined = [h])
    (loaded : s.ensureLoaded ⟨1⟩ = .ok (true, s)) (honest : Archive.Honest s.archive) :
    ∃ x, Relation.ReflTransGen
      (fun c c' => Proceeds c c' ∧ ¬ Renames c c' ∧ Archive.Honest c'.session.archive)
      ⟨s, .calm, past⟩ ⟨s.runHandler h Session.joined, .calm, past ++ [x]⟩ := by
  obtain ⟨x, line⟩ := s.exists_performs (.handler h Session.joined)
  have load : Proceeds ⟨s, .events [] [Session.joined] false, past⟩
      ⟨s, .events [(h, Session.joined)] [] false, past⟩ := by
    have lines : Proceeds ⟨s, .events [] [Session.joined] false, past⟩
        ⟨s, .events ((s.handlers.matching Session.joined).map fun h => (h, Session.joined)) [] false,
          past⟩ := .load loaded
    rwa [waits] at lines
  have kept : Archive.Honest (s.runHandler h Session.joined).archive :=
    (s.runHandler_worksFor h Session.joined).archive ▸ honest
  exact ⟨x, (((Relation.ReflTransGen.single ⟨.event Session.joined, nofun, honest⟩).tail
    ⟨load, nofun, honest⟩).tail ⟨.unit rfl line, nofun, kept⟩).tail ⟨.eventDone, nofun, kept⟩⟩

/-- Where nothing else waits, a tick polls the loops that are due. -/
theorem spares_polling {s : Session σ} (past : List Happening) (a : ActorId)
    (honest : Archive.Honest s.archive) (inbox : s.inbox = [])
    (delays : s.machine.agenda.delays = []) :
    Relation.ReflTransGen (fun c c' => Spares a c c' ∧ ¬ Renames c c') ⟨s, .calm, past⟩
      ⟨polling s, .loops s.machine.agenda.advance.takeDelays.2.takeLoops.1, past⟩ := by
  let s₁ : Session σ := { s with inbox := [] }
  let s₂ : Session σ :=
    { s₁ with machine := { s.machine with agenda := s.machine.agenda.advance.takeDelays.2 } }
  have none : s.machine.agenda.advance.takeDelays.1 = [] := by
    show s.machine.agenda.delays.filter _ = []
    rw [delays]
    rfl
  have tick : Proceeds ⟨s, .calm, past⟩ ⟨s₁, .events [] [] true, past⟩ := by
    rw [← inbox]
    exact .tick
  have advance : Proceeds ⟨s₁, .events [] [] true, past⟩ ⟨s₂, .delays [], past⟩ := by
    rw [← none]
    exact .advance
  have begins (s' : Session σ) :
      ¬ Concerns a ⟨s, .calm, past⟩ ⟨s', .events [] [] true, past⟩ := nofun
  have ticks : Spares a ⟨s, .calm, past⟩ ⟨s₁, .events [] [] true, past⟩ := ⟨tick, begins s₁, honest⟩
  have advances : Spares a ⟨s₁, .events [] [] true, past⟩ ⟨s₂, .delays [], past⟩ :=
    ⟨advance, nofun, honest⟩
  have polls : Spares a ⟨s₂, .delays [], past⟩
      ⟨polling s, .loops s.machine.agenda.advance.takeDelays.2.takeLoops.1, past⟩ :=
    ⟨.poll, nofun, honest⟩
  exact ((Relation.ReflTransGen.single ⟨ticks, nofun⟩).tail ⟨advances, nofun⟩).tail ⟨polls, nofun⟩

/-- The archive before the owner departs has no documents. -/
theorem inPlace_looping : Filing.InPlace looping.archive := fun _ _ none => nomatch none

/-- The archive has the one document that the departure has stored. -/
theorem honest_left : Archive.Honest left.archive :=
  (inPlace_looping.save Moment.loopScript.rebuildFunctions).honest

/-- The loop has begun in a lawful course. -/
theorem lawful_looping : ∃ past, Reached ⟨looping, .calm, past⟩ ∧ Lawful ⟨looping, .calm, past⟩ := by
  let fresh : Session MemoryArchive := .start {} Session.lonely .refusing {}
  have nothing : Archive.Honest fresh.archive := inPlace_looping.honest
  have installs : Proceeds ⟨fresh, .calm, []⟩ ⟨equipped fresh, .calm, []⟩ :=
    .tend (.install (install_equipped fresh))
  have indexed : (equipped fresh).Indexed := (Session.Indexed.start ..).install (install_equipped fresh)
  have waits : (equipped fresh).handlers.matching Session.joined = [⟨0, ⟨1⟩, 0⟩] := by decide +kernel
  obtain ⟨x, joins⟩ := steps_joined (s := equipped fresh) [] waits rfl nothing
  refine ⟨[] ++ [x], ?_, ?_⟩
  · have begun : Reached ⟨equipped fresh, .calm, []⟩ := .step (.start ..) installs
    exact begun.steps (joins.lift id fun _ _ next => next.1)
  · have begun : Lawful ⟨equipped fresh, .calm, []⟩ :=
      .step (.start _ _ _ nothing) installs (not_renames_of_indexed indexed) nothing
    exact begun.steps joins

/-- While the owner is away, a tick polls the loop. -/
theorem steps_away (past : List Happening) : ∃ s x, Relation.ReflTransGen
    (fun c c' => Spares ⟨1⟩ c c' ∧ ¬ Renames c c')
    ⟨left, .calm, past⟩ ⟨s, .loops [], past ++ [x]⟩ := by
  have behind : left.machine.agenda.advance.takeDelays.2.takeLoops.1.map LoopTask.token =
      [(⟨1⟩, ⟨0, 1⟩)] := by decide +kernel
  obtain ⟨t, due, -⟩ := List.map_eq_singleton_iff.mp behind
  obtain ⟨x, done⟩ := (polling left).exists_performs (.iteration t)
  have tick := spares_polling past ⟨1⟩ honest_left rfl rfl
  rw [due] at tick
  exact ⟨_, x, tick.tail ⟨⟨.unit rfl done, nofun, honest_left⟩, nofun⟩⟩

/-- The owner comes back, and a tick takes out the loop that is left and the new one. -/
theorem steps_back (past : List Happening) : ∃ c u u', Relation.ReflTransGen Proceeds
    ⟨left, .calm, past⟩ c ∧ c.session = polling returned ∧ c.phase = .loops [u, u'] ∧
      u.token = (⟨1⟩, ⟨0, 1⟩) := by
  have waits : (equipped left).handlers.matching Session.joined = [⟨1, ⟨1⟩, 0⟩] := by decide +kernel
  have both : returned.machine.agenda.advance.takeDelays.2.takeLoops.1.map LoopTask.token =
      [(⟨1⟩, ⟨0, 1⟩), (⟨1⟩, ⟨1, 3⟩)] := by decide +kernel
  obtain ⟨u, rest, due, token, alone⟩ := List.map_eq_cons_iff.mp both
  obtain ⟨u', rfl, -⟩ := List.map_eq_singleton_iff.mp alone
  obtain ⟨y, joins⟩ := steps_joined (s := equipped left) past waits rfl honest_left
  have back : Relation.ReflTransGen Proceeds ⟨left, .calm, past⟩ ⟨returned, .calm, past ++ [y]⟩ :=
    (Relation.ReflTransGen.single (.tend (.install (install_equipped left)))).trans
      (joins.lift id fun _ _ next => next.1)
  have tick := spares_polling (past ++ [y]) ⟨1⟩ (s := returned) honest_left rfl rfl
  rw [due] at tick
  have ticks : Relation.ReflTransGen Proceeds ⟨returned, .calm, past ++ [y]⟩
      ⟨polling returned, .loops [u, u'], past ++ [y]⟩ :=
    tick.lift id fun _ _ next => next.1.next
  exact ⟨_, u, u', back.trans ticks, rfl, rfl, token⟩

/-- While the owner is away, a tick polls the loop in vain.  When the owner has come back, and
another loop is in the slot, the next poll of the first loop is still in vain. -/
theorem departed_silent_looping : ∃ past c u, Reached ⟨looping, .calm, past⟩ ∧
    c.phase = .loops [] ∧ Gone ⟨1⟩ (departed looping past ⟨1⟩) c ∧
    Filing.document? c.session.archive ⟨1⟩ = Filing.document? left.archive ⟨1⟩ ∧
    u.token = (⟨1⟩, ⟨0, 1⟩) ∧ returned.machine.slots.active.get? ⟨1⟩ = some ⟨1, 3⟩ ∧
    (polling returned).Ignores u := by
  obtain ⟨past, reached, lawful⟩ := lawful_looping
  have begun : looping.machine.agenda.loops.map LoopTask.token = [(⟨1⟩, ⟨0, 1⟩)] := by decide +kernel
  obtain ⟨t, alone, same⟩ := List.map_eq_singleton_iff.mp begun
  have mem : t ∈ looping.machine.agenda.loops := alone ▸ List.mem_singleton_self t
  obtain ⟨away, document, back⟩ := departed_silent (s := looping) reached ⟨1⟩
  obtain ⟨s, x, polled⟩ := steps_away (departed looping past ⟨1⟩).history
  obtain ⟨c, u, u', run, session, phase, token⟩ := steps_back (departed looping past ⟨1⟩).history
  have few : c.session.machine.slots.started < UInt32.size := by
    rw [session]
    decide +kernel
  have ignored := back c run few t mem (congrArg Prod.fst same) u [u'] (token.trans same.symm) phase
  rw [session] at ignored
  have gone := away _ (polled.lift id fun _ _ next => next.1)
  exact ⟨_, _, u, reached, rfl, gone, document lawful _ polled, token, by decide +kernel, ignored⟩

/-! ## A document that is overwritten -/

/-- A session in which a script has just been installed. -/
def usual : Session MemoryArchive := (Session.start {} {} .refusing {}).holding (Session.stray true)

/-- The script of somebody else has been edited to name the owner. -/
def usurped : Session MemoryArchive :=
  { usual with
    handlers := usual.handlers.register (Session.stray false)
    scripts := usual.scripts.insert ⟨1⟩ (Session.stray false)
    dirty := usual.dirty.insert ⟨1⟩ () }

theorem install_usual :
    (Session.start {} {} .refusing ({} : MemoryArchive)).install (Session.stray true) = .ok usual := rfl

theorem edit_usual : usual.edit ⟨1⟩ (fun _ => Session.stray false) = .ok usurped :=
  Session.edit_eq_ok_iff.mpr ⟨false, usual, rfl, rfl⟩

/-- To save what is marked after the owner has departed is not the owner's. -/
theorem others_flush {past : List Happening} : ¬ Concerns ⟨2⟩ ⟨(usurped.depart ⟨2⟩).2, .calm, past⟩
    ⟨(usurped.depart ⟨2⟩).2.flush.2, .calm, past⟩ := by
  have gone : (usurped.depart ⟨2⟩).2.flush.2.scripts.get? ⟨2⟩ = none := rfl
  have marked : (usurped.depart ⟨2⟩).2.dirty.keys = [⟨1⟩] := rfl
  have flushed : (usurped.depart ⟨2⟩).2.flush.2.dirty.keys = [] := rfl
  generalize (usurped.depart ⟨2⟩).2 = s at gone marked flushed ⊢
  intro concerns
  generalize after : s.flush.2 = s' at concerns gone flushed
  cases concerns with
  | install done own =>
      unfold Session.install at done
      split at done
      · cases done
      · cases done
        rw [← own] at gone
        cases gone.symm.trans (Table.get?_insert_self ..)
  | edit done =>
      obtain ⟨_, _, -, rfl⟩ := Session.edit_eq_ok_iff.mp done
      cases gone.symm.trans (Table.get?_insert_self ..)
  | load done =>
      obtain ⟨script, loaded⟩ := (Session.get?_of_ensureLoaded done).mp rfl
      cases gone.symm.trans loaded
  | document _ => cases marked.symm.trans flushed

/-- **A document can be overwritten while its owner is away.**  A script is installed, another owner's is edited
to name its owner, the owner departs, and what is marked is saved.  The archive is honest at every step. -/
theorem departed_overwritten : ∃ (s : Session MemoryArchive) (c : Chronicle MemoryArchive),
    Relation.ReflTransGen (fun c c' => Proceeds c c' ∧ Archive.Honest c.session.archive)
      ⟨.start {} {} .refusing {}, .calm, []⟩ ⟨s, .calm, []⟩ ∧
    Relation.ReflTransGen (Spares ⟨2⟩) (departed s [] ⟨2⟩) c ∧ Archive.Honest c.session.archive ∧
    Filing.document? (departed s [] ⟨2⟩).session.archive ⟨2⟩ = some (Session.stray true).toText ∧
    Filing.document? c.session.archive ⟨2⟩ = some (Session.stray false).toText ∧
    (Session.stray false).toText ≠ (Session.stray true).toText := by
  have nothing : Filing.InPlace usual.archive := fun _ _ none => nomatch none
  have stored : Filing.InPlace (usurped.depart ⟨2⟩).2.archive := nothing.save (Session.stray true)
  have saved : Filing.InPlace (usurped.depart ⟨2⟩).2.flush.2.archive := stored.save (Session.stray false)
  refine ⟨usurped, { departed usurped [] ⟨2⟩ with session := (usurped.depart ⟨2⟩).2.flush.2 }, ?_,
    .single ⟨.tend .flush, others_flush, stored.honest⟩, saved.honest, rfl, rfl, ?_⟩
  · exact (Relation.ReflTransGen.single ⟨.tend (.install install_usual), nothing.honest⟩).tail
      ⟨.tend (.edit edit_usual), nothing.honest⟩
  · intro same
    have read : Script.ofText (Session.stray false).toText ⟨0⟩ = .ok (Session.stray false, ⟨0⟩) :=
      Session.ofText_stray_iff.mpr rfl
    rw [same] at read
    cases Session.ofText_stray_iff.mp read

end Chronicle

end Blockwork
