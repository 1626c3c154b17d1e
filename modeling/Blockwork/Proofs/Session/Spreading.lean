import Blockwork.Proofs.Handlers
import Blockwork.Proofs.Session.Waiting

/-!
# A loop at once and a loop over ticks

An event starts a line that ends with a loop.  If the loop is asynchronous, its iterations are spread
over ticks, and otherwise they are all made before the event is done with.  `Session.spread_equivalent`
says that both come to the same: the same globals of the script, the same world with the same messages
and reports in the same order, and the same side effects.

## What is load-bearing

Nothing else may come in between: everything around the loop, in it and in the functions it may call is
prompt, and nothing waits when the event comes.  A slot that is taken or a signal that is raised before
it is handed out would end the loop over ticks early; neither occurs in a session that a host has brought
about (`AtRest.of_reached`).

The two lines begin in the very same frame and state.  What stands before the loop therefore does the
same for no deeper reason, and only from the loop on the runs are related by `Awaits`.
-/

namespace Blockwork

/-! ## Lines that end with a loop -/

/-- The blocks of a line that ends with a loop. -/
structure LoopEnding where
  /-- What stands before the loop. -/
  before : List Block
  /-- The identity of the loop. -/
  id : BlockId
  /-- The loop, but for whether it is asynchronous. -/
  loop : Repeat
  /-- What the loop repeats. -/
  body : List Block

/-- The blocks with the loop at once or over ticks. -/
def LoopEnding.blocks (l : LoopEnding) (isAsync : Bool) : List Block :=
  l.before ++ [⟨l.id, .repeat_ { l.loop with isAsync := isAsync }, l.body⟩]

namespace Loop

variable (f : Frame) (st : RunState) (interval : UInt32) (body : List Block) (c : Cursor)

/-- The loop that is put into the agenda. -/
def task : LoopTask where
  handle := ⟨UInt32.ofNat st.machine.slots.started, st.machine.signals.next⟩
  body := body
  cursor := c
  context := ⟨{ f with cancel := st.machine.signals.next }, st.scope⟩
  interval := max interval.toNat 1
  nextTick := st.machine.agenda.tick + 1

variable {f st}

/-- A loop is handed over if the actor's slot is free. -/
theorem run_spread (free : st.machine.slots.active.get? f.actor = none) :
    (spread f interval body c).run st = (.success, { st with machine := { st.machine with
      slots := {
        active := st.machine.slots.active.insert f.actor (task f st interval body c).handle
        started := st.machine.slots.started + 1 }
      signals := st.machine.signals.fresh.2
      agenda := st.machine.agenda.addLoop (task f st interval body c) } }) := by
  have vacant : st.machine.slots.active.contains f.actor = false :=
    Table.contains_eq_false_iff.mpr free
  unfold StateT.run spread Machine.takeSlot LoopSlots.register
  rw [vacant]
  rfl

end Loop

namespace Interpreter

variable {limits : Limits} {call : Caller} {f : Frame}

/-- Runs a loop and notes it in the log. -/
def loopBlock (limits : Limits) (call : Caller) (f : Frame) (id : BlockId) (r : Repeat)
    (children : List Block) : Run Outcome := do
  let o ← Loop.repeat_ limits f r children (blocks limits call f none children)
  Run.record f ⟨id, .repeat_ r, children⟩ o
  pure o

/-- Siblings that end with a loop: the loop comes last, and its outcome is the outcome. -/
theorem blocks_concat_repeat (previous : Option Bool) (bs : List Block) (id : BlockId) (r : Repeat)
    (children : List Block) :
    blocks limits call f previous (bs ++ [⟨id, .repeat_ r, children⟩]) =
      (blocks limits call f previous bs >>= fun o =>
        if o.isSuccess then loopBlock limits call f id r children else pure o) := by
  induction bs generalizing previous with
  | nil =>
      have same (o : Outcome) : (if o.isSuccess then pure Outcome.success else pure o : Run Outcome) =
          pure o := by
        cases o <;> rfl
      simp only [List.nil_append, blocks, block, perform, bind_assoc, pure_bind, same]
      rfl
  | cons b bs ih =>
      simp only [List.cons_append, blocks, bind_assoc]
      congr 1
      funext result
      obtain ⟨o, held⟩ := result
      dsimp only
      cases success : o.isSuccess with
      | true => rw [if_pos rfl, if_pos rfl, ih]
      | false => simp [success]

/-- A run with its outcome noted in the log. -/
def noted (f : Frame) (b : Block) (ended : Outcome × RunState) : Outcome × RunState :=
  (ended.1, { ended.2 with scope := ended.2.scope.record f.logLimit b ended.1 })

theorem run_loopBlock (id : BlockId) (r : Repeat) (children : List Block) (st : RunState) :
    (loopBlock limits call f id r children).run st = noted f ⟨id, .repeat_ r, children⟩
      ((Loop.repeat_ limits f r children (blocks limits call f none children)).run st) := rfl

end Interpreter

/-- All blocks are prompt if the loop is made at once and everything around and in it is prompt. -/
theorem LoopEnding.prompt {l : LoopEnding} (before : Block.Prompt l.before)
    (body : Block.Prompt l.body) : Block.Prompt (l.blocks false) := by
  rw [blocks, Block.Prompt.append_iff, Block.Prompt.single_iff]
  exact ⟨before, rfl, body⟩

namespace Session

variable {σ : Type} {s : Session σ} {e : Event} {h : Handler}

/-! ## Which lines an event starts -/

/-- Whether a handler's line is there and neither the line nor its script nor the world is against
running it. -/
def starts (s : Session σ) (h : Handler) (e : Event) : Bool :=
  match s.scripts.get? h.owner with
  | none => false
  | some script =>
    match script.lines[h.line]? with
    | none => false
    | some line => script.enabled && line.enabled && isBoundHere s.machine.world script e.actor

/-- Those of the given handlers whose lines run when an event is passed to one after another. -/
def firing (s : Session σ) (e : Event) : List Handler → List Handler
  | [] => []
  | h :: rest =>
    if s.starts h e then h :: firing (s.runHandler h e) e rest else firing s e rest

theorem runHandler_of_not_starts (idle : s.starts h e = false) : s.runHandler h e = s := by
  unfold starts at idle
  unfold runHandler
  split
  · rfl
  · next loaded =>
    rw [loaded] at idle
    split
    · rfl
    · next there =>
      simp only [there] at idle
      rw [idle]
      rfl

/-- Handlers that do not fire do nothing. -/
theorem foldl_runHandler_of_firing (handlers : List Handler) (s : Session σ) :
    handlers.foldl (fun s h => s.runHandler h e) s =
      (s.firing e handlers).foldl (fun s h => s.runHandler h e) s := by
  induction handlers generalizing s with
  | nil => rfl
  | cons h rest ih =>
      rw [List.foldl_cons, firing]
      cases fires : s.starts h e with
      | true => exact ih _
      | false =>
          rw [runHandler_of_not_starts fires]
          exact ih s

/-- A handler that fires is one of the handlers and is started where nothing has been done yet. -/
theorem starts_of_firing {handlers : List Handler} (only : s.firing e handlers = [h]) :
    h ∈ handlers ∧ s.starts h e = true := by
  induction handlers with
  | nil => cases only
  | cons k rest ih =>
      rw [firing] at only
      split at only
      · next fires =>
        obtain ⟨rfl, -⟩ := List.cons.inj only
        exact ⟨List.mem_cons_self .., fires⟩
      · obtain ⟨mem, fires⟩ := ih only
        exact ⟨List.mem_cons_of_mem _ mem, fires⟩

/-! ## The run of a line -/

/-- The frame in which the line of a handler runs. -/
def lineFrame (s : Session σ) (script : Script) (h : Handler) (e : Event) (name : String) : Frame :=
  { ((Job.handler h e).opening s script).1.frame with line := name }

/-- The state in which the line of a handler begins. -/
def lineStart (s : Session σ) (script : Script) (h : Handler) (e : Event) : RunState :=
  let (c, m) := (Job.handler h e).opening s script
  ⟨c.scope, m⟩

/-- A handler of the acting actor that fires runs its line, commits its variables and reports its
failure. -/
theorem runHandler_eq_conclude {script : Script} {line : Line} (own : h.owner = e.actor)
    (loaded : s.scripts.get? e.actor = some script) (there : script.lines[h.line]? = some line)
    (fires : s.starts h e = true) :
    s.runHandler h e =
      let f := s.lineFrame script h e line.name
      let ended := (Interpreter.run s.limits f line.body).run (s.lineStart script h e)
      s.conclude e.actor ⟨f, ended.2.scope⟩ ended.1.settled ended.2.machine := by
  simp only [starts, own, loaded, there] at fires
  simp only [runHandler, own, loaded, there, fires, if_true]
  have enabled : line.enabled = true := by
    rw [Bool.and_eq_true, Bool.and_eq_true] at fires
    exact fires.1.2
  unfold Context.runLine
  simp only [enabled, if_true]
  rfl

/-- A context without its roles. -/
def withoutRoles (c : Context) : Context := { c with frame := { c.frame with roles := {} } }

theorem withoutRoles_setRole (c : Context) (role value : String) :
    withoutRoles (c.setRole role value) = withoutRoles c := rfl

theorem withoutRoles_bindActor (w : World) (c : Context) (role : String) (id : ActorId) :
    withoutRoles (bindActor w c role id) = withoutRoles c := by
  unfold bindActor
  split <;> rfl

theorem withoutRoles_foldl {α : Type} {step : Context → α → Context}
    (each : ∀ c x, withoutRoles (step c x) = withoutRoles c) (l : List α) (c : Context) :
    withoutRoles (l.foldl step c) = withoutRoles c := by
  induction l generalizing c with
  | nil => rfl
  | cons x l ih => rw [List.foldl_cons, ih, each]

/-- Binding roles changes nothing but the roles. -/
theorem withoutRoles_bindRoles (c : Context) (e : Event) (w : World) (dice : Dice) :
    withoutRoles (bindRoles c e w dice).1 = withoutRoles c := by
  have data (c : Context) : withoutRoles (e.data.toList.foldl
      (fun c d => c.setRole ("event_" ++ d.1) d.2) c) = withoutRoles c :=
    withoutRoles_foldl (fun c d => withoutRoles_setRole c _ _) _ c
  have participants (c : Context) : withoutRoles (e.roles.toList.foldl
      (fun c r => bindActor w c r.1 r.2) c) = withoutRoles c :=
    withoutRoles_foldl (fun c (r : String × ActorId) => withoutRoles_bindActor w c r.1 r.2) _ c
  unfold bindRoles
  dsimp only
  cases (dice.choose w.actors).1 <;> cases e.kind.actorRole <;>
    simp only [data, participants, withoutRoles_setRole, withoutRoles_bindActor]

section Line

variable (s : Session σ) (script : Script) (h : Handler) (e : Event) (name : String)

/-- What a line's frame takes from the session and the script. -/
theorem lineFrame_fields :
    (s.lineFrame script h e name).actor = e.actor ∧
      (s.lineFrame script h e name).globals = snapshot script.globals ∧
      (s.lineFrame script h e name).functions = script.functions ∧
      (s.lineFrame script h e name).cancel = s.machine.signals.next := by
  have same := congrArg Context.frame (withoutRoles_bindRoles
    (Context.ofScript e.actor script s.limits.logEntries s.machine.signals.next) e s.machine.world
    s.machine.dice)
  exact ⟨congrArg Frame.actor same, congrArg Frame.globals same, congrArg Frame.functions same,
    congrArg Frame.cancel same⟩

variable {s script h e name}

/-- Sessions with the same machine run the same line of scripts with the same globals and functions in
the same way. -/
theorem lineFrame_eq_of_same {t : Session σ} {script' : Script} {h' : Handler} (limits : t.limits = s.limits)
    (machine : t.machine = s.machine) (globals : script'.globals = script.globals)
    (functions : script'.functions = script.functions) :
    t.lineFrame script' h' e name = s.lineFrame script h e name ∧
      t.lineStart script' h' e = s.lineStart script h e := by
  unfold lineFrame lineStart Job.opening Context.ofScript
  rw [limits, machine, globals, functions]
  exact ⟨rfl, rfl⟩

end Line

/-! ## Nothing waits -/

/-- Nothing waits: no loop, neither in the agenda nor in the actor's slot, no delayed blocks and no
event; and no signal is raised that has not been handed out. -/
structure AtRest (s : Session σ) (a : ActorId) : Prop where
  /-- No loop waits. -/
  loops : s.machine.agenda.loops = []
  /-- No blocks are put off. -/
  delays : s.machine.agenda.delays = []
  /-- No event waits. -/
  inbox : s.inbox = []
  /-- The actor has no loop in progress. -/
  slot : s.machine.slots.active.get? a = none
  /-- Only signals that have been handed out are raised. -/
  signals : ∀ x, s.machine.signals.isRaised x = true → x < s.machine.signals.next

theorem AtRest.isRaised_eq_false {a : ActorId} (rest : s.AtRest a) {x : Signal}
    (later : s.machine.signals.next ≤ x) : s.machine.signals.isRaised x = false := by
  rw [Bool.eq_false_iff]
  intro raised
  exact absurd (rest.signals x raised) (Nat.not_lt.mpr later)

/-- In a session that a host has brought about, nothing waits if agenda and inbox are empty, as long as
there are numbers for loops left. -/
theorem AtRest.of_reached [Archive σ] {limits : Limits} {world : World} {effects : Effects}
    {archive : σ} (reached : Relation.ReflTransGen Moment.Move
      (Moment.start limits world effects archive) { session := s })
    (few : s.machine.slots.started < UInt32.size) (loops : s.machine.agenda.loops = [])
    (delays : s.machine.agenda.delays = []) (inbox : s.inbox = []) (a : ActorId) : s.AtRest a := by
  have registry := Moment.registry_of_reached reached few
  refine ⟨loops, delays, inbox, ?_, registry.raised⟩
  cases slot : s.machine.slots.active.get? a with
  | none => rfl
  | some handle =>
      -- a slot that is taken is held by a loop
      obtain ⟨held, -⟩ := registry.taken a handle slot
      have none : Moment.loops ({ session := s } : Moment σ) = [] := loops
      rw [none] at held
      cases held

section Start

variable {script : Script} {name : String}

/-- At its start, a line's run resembles itself. -/
theorem AtRest.resembles_lineStart {a : ActorId} (rest : s.AtRest a) (name : String) :
    (s.lineStart script h e).Resembles (s.lineFrame script h e name) (s.lineFrame script h e name)
      (s.lineStart script h e) := by
  have live : (s.lineStart script h e).machine.signals.isRaised (s.lineFrame script h e name).cancel =
      false := by
    rw [(s.lineFrame_fields script h e name).2.2.2]
    exact rest.isRaised_eq_false (Nat.le_refl _)
  exact ⟨rfl, ⟨rfl, rfl, rfl, rfl⟩, live, live⟩

/-- A line whose run disturbs nothing leaves the session settled. -/
theorem AtRest.settled (rest : s.AtRest e.actor) (loaded : s.scripts.get? e.actor = some script)
    {ended : Outcome × RunState}
    (quiet : (s.lineStart script h e).machine.Undisturbed ended.2.machine) :
    (s.conclude e.actor ⟨s.lineFrame script h e name, ended.2.scope⟩ ended.1.settled
      ended.2.machine).Settled e.actor script.globals (s.lineFrame script h e name) ended := by
  have works := WorksFor.conclude s e.actor ⟨s.lineFrame script h e name, ended.2.scope⟩
    ended.1.settled ended.2.machine
  refine ⟨?_, ?_, works.inbox.trans rest.inbox, ?_, ?_⟩
  · rw [conclude_machine, report_agenda, quiet.agenda]
    exact rest.loops
  · rw [conclude_machine, report_agenda, quiet.agenda]
    exact rest.delays
  · rw [conclude_machine]
    exact ⟨rfl, rfl, rfl, rfl⟩
  · rw [conclude, get?_commit_self loaded, Option.map_some]

/-- The log is not committed. -/
theorem commit_record (f g : Frame) (scope : Scope) (limit : Nat) (b : Block) (o : Outcome)
    (globals : Table String Scalar) :
    Context.commit ⟨f, scope.record limit b o⟩ globals = Context.commit ⟨g, scope⟩ globals := by
  unfold Context.commit Scope.record
  split <;> rfl

/-- A line that hands its loop over leaves the loop waiting where the loop at once begins. -/
theorem AtRest.awaits (rest : s.AtRest e.actor) (loaded : s.scripts.get? e.actor = some script)
    (online : (s.machine.world.actor? e.actor).isSome = true) {st : RunState}
    (quiet : (s.lineStart script h e).machine.Undisturbed st.machine) (interval : UInt32)
    (body : List Block) (c : Cursor) (b : Block) :
    let f := s.lineFrame script h e name
    let ended := Interpreter.noted f b ((Loop.spread f interval body c).run st)
    (s.conclude e.actor ⟨f, ended.2.scope⟩ ended.1.settled ended.2.machine).Awaits s.limits e.actor
      script.globals f st (Loop.task f st interval body c) := by
  intro f ended
  obtain ⟨actor, under, -, cancel⟩ := s.lineFrame_fields script h e name
  have free : st.machine.slots.active.get? f.actor = none := by
    rw [actor, quiet.slots]
    exact rest.slot
  -- the loop's signal is the one after the line's, and neither is raised
  have next : st.machine.signals.next = s.machine.signals.next + 1 := by
    rw [quiet.signals]
    rfl
  have unraised {x : Signal} (later : s.machine.signals.next ≤ x) :
      st.machine.signals.isRaised x = false := by
    rw [quiet.signals]
    exact rest.isRaised_eq_false later
  have live : st.machine.signals.isRaised f.cancel = false := unraised (Nat.le_of_eq cancel.symm)
  have live' : st.machine.signals.isRaised st.machine.signals.next = false :=
    unraised (next ▸ Nat.le_succ _)
  have spread := Loop.run_spread interval body c free
  have works := WorksFor.conclude s e.actor ⟨f, ended.2.scope⟩ ended.1.settled ended.2.machine
  have machine : (s.conclude e.actor ⟨f, ended.2.scope⟩ ended.1.settled ended.2.machine).machine =
      ((Loop.spread f interval body c).run st).2.machine := by
    rw [conclude_machine]
    show report ((Loop.spread f interval body c).run st).2.machine e.actor f.line
      ((Loop.spread f interval body c).run st).1.settled = _
    rw [spread]
    rfl
  rw [spread] at machine
  have stored : Context.commit ⟨f, ended.2.scope⟩ script.globals =
      (Loop.task f st interval body c).context.commit script.globals := by
    show Context.commit ⟨f, (Interpreter.noted f b _).2.scope⟩ _ = _
    rw [spread]
    exact commit_record _ _ _ _ _ _ _
  exact {
    limits := works.limits
    delays := by
      rw [machine]
      show st.machine.agenda.delays = []
      rw [quiet.agenda]
      exact rest.delays
    inbox := works.inbox.trans rest.inbox
    own := actor
    online := by
      rw [machine]
      exact (quiet.online e.actor).trans online
    like := ⟨rfl, rfl, rfl, rfl, rfl, rfl⟩
    cancel := rfl
    state := by
      rw [machine]
      exact ⟨rfl, ⟨rfl, rfl, rfl, rfl⟩, live, live'⟩
    loops := by
      rw [machine]
      show st.machine.agenda.loops ++ [_] = [_]
      rw [quiet.agenda]
      exact congrArg (· ++ [_]) rest.loops
    stored := ⟨_, script.globals, get?_commit_self loaded _ _, under, stored, fun _ _ => rfl⟩ }

/-- The log makes no difference to what a session comes to. -/
theorem Settles.noted [Archive σ] {a : ActorId} {globals : Table String Scalar} {f : Frame}
    {ended : Outcome × RunState} (h : s.Settles a globals f ended) (b : Block) :
    s.Settles a globals f (Interpreter.noted f b ended) := by
  obtain ⟨n, before, settled⟩ := h
  exact ⟨n, before, { settled with stored := settled.stored.trans (congrArg some
    (commit_record f f ended.2.scope f.logLimit b ended.1 globals).symm) }⟩

/-- A line that ends with a loop runs its other blocks first, in the same way whether the loop is made
at once or handed over. -/
theorem run_loopEnding (limits : Limits) (f : Frame) (l : LoopEnding) (isAsync : Bool)
    (st : RunState) :
    (Interpreter.run limits f (l.blocks isAsync)).run st =
      let led := (Interpreter.run limits f l.before).run st
      if led.1.isSuccess then
        Interpreter.noted f ⟨l.id, .repeat_ { l.loop with isAsync := isAsync }, l.body⟩
          ((Loop.repeat_ limits f { l.loop with isAsync := isAsync } l.body
            (Interpreter.run limits f l.body)).run led.2)
      else led := by
  unfold Interpreter.run LoopEnding.blocks
  rw [Interpreter.blocks_concat_repeat]
  dsimp only
  generalize Interpreter.call limits (Interpreter.callsLeft limits f) = call
  show (if ((Interpreter.blocks limits call f none l.before).run st).1.isSuccess then
    Interpreter.loopBlock limits call f l.id { l.loop with isAsync := isAsync } l.body
    else pure ((Interpreter.blocks limits call f none l.before).run st).1 : Run Outcome).run
      ((Interpreter.blocks limits call f none l.before).run st).2 = _
  split
  · exact Interpreter.run_loopBlock _ _ _ _
  · rfl

/-- **A line with its loop over ticks settles as the line with its loop at once.** -/
theorem AtRest.settles [Archive σ] (rest : s.AtRest e.actor)
    (loaded : s.scripts.get? e.actor = some script)
    (online : (s.machine.world.actor? e.actor).isSome = true) {l : LoopEnding}
    (before : Block.Prompt l.before) (body : Block.Prompt l.body)
    (known : (s.lineFrame script h e name).Prompt) {after : Session σ}
    (dispatched : after =
      let ended := (Interpreter.run s.limits (s.lineFrame script h e name) (l.blocks true)).run
        (s.lineStart script h e)
      s.conclude e.actor ⟨s.lineFrame script h e name, ended.2.scope⟩ ended.1.settled ended.2.machine)
    (plain : ∀ n, ∀ t ∈ (tick^[n] after).machine.agenda.loops, t.context.IsPlain) :
    after.Settles e.actor script.globals (s.lineFrame script h e name)
      ((Interpreter.run s.limits (s.lineFrame script h e name) (l.blocks false)).run
        (s.lineStart script h e)) := by
  have under := (s.lineFrame_fields script h e name).2.1
  have led := Interpreter.mirrors_run s.limits (.refl _) known before _ _
    (rest.resembles_lineStart name)
  have quiet := led.first
  have settled {ended : Outcome × RunState}
      (quiet : (s.lineStart script h e).machine.Undisturbed ended.2.machine)
      (same : after = s.conclude e.actor ⟨s.lineFrame script h e name, ended.2.scope⟩ ended.1.settled
        ended.2.machine) :
      after.Settles e.actor script.globals (s.lineFrame script h e name) ended :=
    ⟨0, fun k hk => absurd hk (Nat.not_lt_zero k), by rw [same]; exact rest.settled loaded quiet⟩
  rw [run_loopEnding] at dispatched ⊢
  generalize (Interpreter.run s.limits (s.lineFrame script h e name) l.before).run
    (s.lineStart script h e) = led at quiet dispatched ⊢
  dsimp only at dispatched ⊢
  split at dispatched
  · next success =>
    rw [if_pos success]
    rw [Loop.run_repeat] at dispatched ⊢
    have start (isAsync : Bool) : Cursor.start ⟨⟨s.lineFrame script h e name, led.2.scope⟩,
        led.2.machine.world⟩ s.limits { l.loop with isAsync := isAsync } =
        Cursor.start ⟨⟨s.lineFrame script h e name, led.2.scope⟩, led.2.machine.world⟩ s.limits l.loop :=
      rfl
    rw [start] at dispatched ⊢
    split at dispatched
    · exact settled quiet dispatched
    · next c _ =>
      rw [if_pos rfl] at dispatched
      rw [if_neg Bool.false_ne_true]
      have awaits : after.Awaits s.limits e.actor script.globals (s.lineFrame script h e name) led.2
          (Loop.task (s.lineFrame script h e name) led.2 l.loop.interval l.body c) := by
        rw [dispatched]
        exact rest.awaits loaded online quiet l.loop.interval l.body c _
      exact (awaits.settles plain known body under).noted _
  · next failed =>
    rw [if_neg failed]
    exact settled quiet dispatched

end Start

/-! ## Events -/

/-- After loading, an event starts one line of the acting actor's script, with the given name and
blocks. -/
structure Stages (s : Session σ) (e : Event) (h : Handler) (script : Script) (name : String)
    (blocks : List Block) : Prop where
  /-- One handler fires. -/
  fires : s.firing e (s.handlers.matching e) = [h]
  /-- The script of the acting actor. -/
  loaded : s.scripts.get? e.actor = some script
  /-- The line of the handler. -/
  line : ∃ line, script.lines[h.line]? = some line ∧ line.name = name ∧ line.body = blocks

/-- Loading a script leaves all but scripts, handlers and identities. -/
theorem ensureLoaded_frame [Archive σ] {s₁ : Session σ} {a : ActorId} {found : Bool}
    (loading : s.ensureLoaded a = .ok (found, s₁)) :
    s₁.limits = s.limits ∧ s₁.machine = s.machine ∧ s₁.inbox = s.inbox := by
  rcases ensureLoaded_eq_ok_iff.mp loading with ⟨_, -, -, rfl⟩ | ⟨-, -, -, rfl⟩ | ⟨_, _, -, -, -, rfl⟩
  · exact ⟨rfl, rfl, rfl⟩
  · exact ⟨rfl, rfl, rfl⟩
  · exact ⟨rfl, rfl, rfl⟩

theorem Stages.dispatchNow_eq [Archive σ] {s₁ : Session σ} {found : Bool} {script : Script}
    {name : String} {blocks : List Block} (loading : s.ensureLoaded e.actor = .ok (found, s₁))
    (stages : s₁.Stages e h script name blocks) :
    s.dispatchNow e =
      let f := s₁.lineFrame script h e name
      let ended := (Interpreter.run s₁.limits f blocks).run (s₁.lineStart script h e)
      s₁.conclude e.actor ⟨f, ended.2.scope⟩ ended.1.settled ended.2.machine := by
  obtain ⟨line, there, rfl, rfl⟩ := stages.line
  obtain ⟨mem, fires⟩ := starts_of_firing stages.fires
  rw [dispatchNow, loading]
  dsimp only
  rw [foldl_runHandler_of_firing, stages.fires]
  exact runHandler_eq_conclude (Handlers.owner_of_mem_matching mem) stages.loaded there fires

/-- Whether an event is taken at once or at the next tick makes no difference after that tick. -/
theorem tick_dispatch [Archive σ] (inbox : s.inbox = []) (inbox' : (s.dispatchNow e).inbox = []) :
    (s.dispatch e).tick = (s.dispatchNow e).tick := by
  unfold dispatch
  split
  · rfl
  · have emptied : ({ s.queue e with inbox := [] } : Session σ) = s := by
      obtain ⟨limits, machine, archive, scripts, dirty, handlers, inbox, supply, now⟩ := s
      subst inbox
      rfl
    have same : ({ s.dispatchNow e with inbox := [] } : Session σ) = s.dispatchNow e := by
      generalize s.dispatchNow e = s' at inbox'
      obtain ⟨limits, machine, archive, scripts, dirty, handlers, inbox, supply, now⟩ := s'
      subst inbox'
      rfl
    have queued : (s.queue e).inbox = [e] := by
      show s.inbox ++ [e] = [e]
      rw [inbox]
      rfl
    unfold tick
    rw [queued, inbox', emptied, same]
    rfl

/-- Whether no event and no loop waits. -/
def IsIdle (s : Session σ) : Prop := s.inbox = [] ∧ s.machine.agenda.loops = []

/-- Sessions in which an actor's globals are the same, and so are world, side effects and dice. -/
structure SameResult (s t : Session σ) (a : ActorId) : Prop where
  /-- The same globals. -/
  globals : (s.scripts.get? a).map Script.globals = (t.scripts.get? a).map Script.globals
  /-- The same world, side effects and dice. -/
  machine : s.machine.Resembles t.machine

theorem Settled.sameResult {t : Session σ} {a : ActorId} {globals : Table String Scalar} {f : Frame}
    {ended : Outcome × RunState} (hs : s.Settled a globals f ended) (ht : t.Settled a globals f ended) :
    SameResult s t a :=
  ⟨hs.stored.trans ht.stored.symm,
    hs.machine.world.symm.trans ht.machine.world, hs.machine.effects.symm.trans ht.machine.effects,
    hs.machine.dice.symm.trans ht.machine.dice,
    hs.machine.contradiction.symm.trans ht.machine.contradiction⟩

theorem Settled.iterate [Archive σ] {a : ActorId} {globals : Table String Scalar} {f : Frame}
    {ended : Outcome × RunState} (h : s.Settled a globals f ended) (n : Nat) :
    (Session.tick^[n] s).Settled a globals f ended := by
  induction n generalizing s with
  | zero => exact h
  | succ n ih => exact ih h.tick

theorem AtRest.of_same {t : Session σ} {a : ActorId} (rest : s.AtRest a)
    (machine : t.machine = s.machine) (inbox : t.inbox = s.inbox) : t.AtRest a := by
  refine ⟨?_, ?_, inbox.trans rest.inbox, ?_, ?_⟩
  · rw [machine, rest.loops]
  · rw [machine, rest.delays]
  · rw [machine, rest.slot]
  · rw [machine]
    exact rest.signals

section Dispatch

variable [Archive σ] {s₁ : Session σ} {script : Script} {name : String} {found : Bool}
  (rest : s.AtRest e.actor) (loading : s.ensureLoaded e.actor = .ok (found, s₁))
  (known : ∀ name b, script.functions.get? name = some b → Block.Prompt [b])

include rest loading known

/-- An event that starts a line of prompt blocks leaves the session settled. -/
theorem settled_dispatchNow {blocks : List Block} (prompt : Block.Prompt blocks)
    (stages : s₁.Stages e h script name blocks) :
    (s.dispatchNow e).Settled e.actor script.globals (s₁.lineFrame script h e name)
      ((Interpreter.run s₁.limits (s₁.lineFrame script h e name) blocks).run
        (s₁.lineStart script h e)) := by
  obtain ⟨-, machine, inbox⟩ := ensureLoaded_frame loading
  have rest₁ : s₁.AtRest e.actor := rest.of_same machine inbox
  have functions : (s₁.lineFrame script h e name).Prompt := by
    unfold Frame.Prompt
    rw [(s₁.lineFrame_fields script h e name).2.2.1]
    exact known
  have ran := Interpreter.mirrors_run s₁.limits (.refl _) functions prompt _ _
    (rest₁.resembles_lineStart name)
  rw [stages.dispatchNow_eq loading]
  exact rest₁.settled stages.loaded ran.first

/-- An event that starts a line with a loop over ticks settles as if the loop were made at once. -/
theorem settles_dispatchNow {l : LoopEnding}
    (online : (s.machine.world.actor? e.actor).isSome = true)
    (before : Block.Prompt l.before) (body : Block.Prompt l.body)
    (stages : s₁.Stages e h script name (l.blocks true))
    (plain : ∀ n, ∀ task ∈ (tick^[n] (s.dispatchNow e)).machine.agenda.loops, task.context.IsPlain) :
    (s.dispatchNow e).Settles e.actor script.globals (s₁.lineFrame script h e name)
      ((Interpreter.run s₁.limits (s₁.lineFrame script h e name) (l.blocks false)).run
        (s₁.lineStart script h e)) := by
  obtain ⟨-, machine, inbox⟩ := ensureLoaded_frame loading
  have rest₁ : s₁.AtRest e.actor := rest.of_same machine inbox
  have functions : (s₁.lineFrame script h e name).Prompt := by
    unfold Frame.Prompt
    rw [(s₁.lineFrame_fields script h e name).2.2.1]
    exact known
  rw [← machine] at online
  exact rest₁.settles stages.loaded online before body functions (stages.dispatchNow_eq loading) plain

end Dispatch

/-- A session that settles is idle from the tick on which it does, and not before. -/
theorem Settles.of_isIdle [Archive σ] {a : ActorId} {globals : Table String Scalar} {f : Frame}
    {ended : Outcome × RunState} (h : s.Settles a globals f ended) {n : Nat}
    (idle : (tick^[n] s).IsIdle) : (tick^[n] s).Settled a globals f ended := by
  obtain ⟨first, early, settled⟩ := h
  rcases Nat.lt_or_ge n first with lt | ge
  · exact absurd idle.2 (early n lt)
  · obtain ⟨k, rfl⟩ := Nat.exists_eq_add_of_le' ge
    rw [Function.iterate_add_apply]
    exact settled.iterate k

/-- **A loop over ticks comes to the same as the loop at once.**  Two sessions at rest take the same
event, which starts one line in each.  The lines end with the same loop, asynchronous in the first
session and not in the second, and all else in them and in the functions of the scripts is prompt.  If
at the start of the loop and after each of its iterations every lasting variable of the overlay can be
stored as it is, then the loop ends on some tick, and once nothing waits any more, the globals of the
script, the world and the side effects are what the loop at once makes of them. -/
theorem spread_equivalent [Archive σ] {s s₁ t t₁ : Session σ} {e : Event} {h h' : Handler}
    {script script' : Script} {name : String} {l : LoopEnding} {found found' : Bool}
    (rest : s.AtRest e.actor) (online : (s.machine.world.actor? e.actor).isSome = true)
    (limits : t.limits = s.limits) (machine : t.machine = s.machine) (inbox : t.inbox = [])
    (loading : s.ensureLoaded e.actor = .ok (found, s₁))
    (loading' : t.ensureLoaded e.actor = .ok (found', t₁))
    (stages : s₁.Stages e h script name (l.blocks true))
    (stages' : t₁.Stages e h' script' name (l.blocks false))
    (globals : script'.globals = script.globals) (functions : script'.functions = script.functions)
    (before : Block.Prompt l.before) (body : Block.Prompt l.body)
    (known : ∀ name b, script.functions.get? name = some b → Block.Prompt [b])
    (plain : ∀ n, ∀ task ∈ (tick^[n] (s.dispatchNow e)).machine.agenda.loops, task.context.IsPlain) :
    (∃ n, (tick^[n] (s.dispatch e)).IsIdle) ∧
      ∀ n, (tick^[n] (s.dispatch e)).IsIdle →
        SameResult (tick^[n] (s.dispatch e)) (tick^[n] (t.dispatch e)) e.actor ∧
          (s.machine.world.onTickThread = true →
            SameResult (tick^[n] (s.dispatch e)) (t.dispatch e) e.actor) := by
  obtain ⟨limits₁, machine₁, inbox₁⟩ := ensureLoaded_frame loading
  obtain ⟨limits₂, machine₂, inbox₂⟩ := ensureLoaded_frame loading'
  have rest' : t.AtRest e.actor := rest.of_same machine (inbox.trans rest.inbox.symm)
  have known' : ∀ name b, script'.functions.get? name = some b → Block.Prompt [b] := by
    rw [functions]
    exact known
  have settles := settles_dispatchNow rest loading known online before body stages plain
  have settled := settled_dispatchNow rest' loading' known' (LoopEnding.prompt before body) stages'
  -- the two lines begin in the same frame and the same state
  have limits' : t₁.limits = s₁.limits := limits₂.trans (limits.trans limits₁.symm)
  have machine' : t₁.machine = s₁.machine := machine₂.trans (machine.trans machine₁.symm)
  obtain ⟨frame, start⟩ : t₁.lineFrame script' h' e name = s₁.lineFrame script h e name ∧
      t₁.lineStart script' h' e = s₁.lineStart script h e :=
    lineFrame_eq_of_same limits' machine' globals functions
  rw [frame, start, limits', globals] at settled
  have inbox' : (s.dispatchNow e).inbox = [] := by
    rw [stages.dispatchNow_eq loading]
    exact (WorksFor.conclude s₁ _ _ _ _).inbox.trans (inbox₁.trans rest.inbox)
  have ticks (n : Nat) : tick^[n + 1] (s.dispatch e) = tick^[n + 1] (s.dispatchNow e) := by
    rw [Function.iterate_succ_apply, tick_dispatch rest.inbox inbox', Function.iterate_succ_apply]
  have ticks' (n : Nat) : tick^[n + 1] (t.dispatch e) = tick^[n + 1] (t.dispatchNow e) := by
    rw [Function.iterate_succ_apply, tick_dispatch inbox settled.inbox, Function.iterate_succ_apply]
  have thread {u : Session σ} (same : u.machine = s.machine)
      (here : s.machine.world.onTickThread = true) : u.dispatch e = u.dispatchNow e := by
    unfold dispatch
    rw [same, if_pos here]
  refine ⟨?_, fun n idle => ?_⟩
  · obtain ⟨n, -, last⟩ := settles
    have idle := last.tick
    rw [← Function.iterate_succ_apply' tick n (s.dispatchNow e)] at idle
    exact ⟨n + 1, by rw [ticks]; exact ⟨idle.inbox, idle.loops⟩⟩
  · -- before the first tick, a session that is idle has taken the event at once
    have same : tick^[n] (s.dispatch e) = tick^[n] (s.dispatchNow e) ∧
        tick^[n] (t.dispatch e) = tick^[n] (t.dispatchNow e) := by
      cases n with
      | succ n => exact ⟨ticks n, ticks' n⟩
      | zero =>
          have here : s.machine.world.onTickThread = true := by
            by_contra away
            have queued : (s.dispatch e).inbox = s.inbox ++ [e] := by
              rw [dispatch, if_neg away]
              rfl
            have none : (s.dispatch e).inbox = [] := idle.1
            rw [queued] at none
            exact absurd none (List.append_ne_nil_of_right_ne_nil _ (List.cons_ne_nil e []))
          exact ⟨thread rfl here, thread machine here⟩
    rw [same.1] at idle ⊢
    have ended := settles.of_isIdle idle
    refine ⟨?_, fun here => ?_⟩
    · rw [same.2]
      exact ended.sameResult (settled.iterate n)
    · rw [thread machine here]
      exact ended.sameResult settled

/-- Where nothing waits, nothing begins to. -/
theorem iterate_tick_loops [Archive σ] (loops : s.machine.agenda.loops = [])
    (delays : s.machine.agenda.delays = []) (inbox : s.inbox = []) (n : Nat) :
    (tick^[n] s).machine.agenda.loops = [] := by
  induction n generalizing s with
  | zero => exact loops
  | succ n ih =>
      have later : s.tick = s.advanced := by
        rw [tick_eq_pollLoops inbox delays]
        exact pollLoops_of_none (s := s.advanced) loops
      rw [Function.iterate_succ_apply, later]
      exact ih loops delays inbox

/-! ## A loop over a list -/

/-- A script with a line that goes through a list, at once or over ticks, and keeps what it sees. -/
def collector (isAsync : Bool) : Script :=
  { ownerId := ⟨1⟩
    ownerName := "ada"
    lastModified := ⟨0, 0⟩
    lines := [{
      name := "collect"
      blocks := ⟨⟨2⟩, .event (some .join), []⟩ :: collected.blocks isAsync }] }
where
  /-- The loop of the line. -/
  collected : LoopEnding :=
    { before := []
      id := ⟨3⟩
      loop := { mode := some .forEach, list := some (.text "sea,sky") }
      body := [⟨⟨4⟩, .variable_ {
        op := some .set, name := "seen", value := some (.variable_ "_loop_value") }, []⟩] }

/-- A world with one actor. -/
def lonely : World where
  actors := [{ id := ⟨1⟩, name := "ada", location := {} }]
  distinct := List.nodup_singleton _

/-- A session with the script. -/
def collecting (isAsync : Bool) : Session MemoryArchive :=
  { Session.start {} lonely .refusing ({} : MemoryArchive) with
    scripts := ({} : Table ActorId Script).insert ⟨1⟩ (collector isAsync).rebuildFunctions
    handlers := ({} : Handlers).register (collector isAsync)
    dirty := ({} : Table ActorId Unit).insert ⟨1⟩ () }

/-- The owner comes online. -/
def joined : Event := { kind := .join, actor := ⟨1⟩ }

theorem get?_functions_collector (isAsync : Bool) (name : String) :
    (collector isAsync).rebuildFunctions.functions.get? name = none := by
  show (Script.collectFunctions (collector isAsync).blocks).get? name = none
  rw [Script.get?_collectFunctions]
  rfl

theorem stages_collecting (isAsync : Bool) :
    (collecting isAsync).Stages joined ⟨0, ⟨1⟩, 0⟩ (collector isAsync).rebuildFunctions "collect"
      (collector.collected.blocks isAsync) where
  fires := by cases isAsync <;> rfl
  loaded := rfl
  line := ⟨_, rfl, rfl, rfl⟩

/-- Before it joins, nothing waits. -/
theorem atRest_collecting : (collecting true).AtRest ⟨1⟩ := by
  have valid : (collector true).problems = [] := by decide +kernel
  have installed : (Moment.start {} lonely .refusing ({} : MemoryArchive)).session.install
      (collector true) = .ok (collecting true) := install_eq_ok valid
  exact .of_reached (.single (.install installed)) (by decide) rfl rfl rfl ⟨1⟩

/-- What the loop has seen can be stored at every tick: while it runs, and when it is over. -/
theorem isPlain_collecting (n : Nat) :
    ∀ task ∈ (tick^[n] ((collecting true).dispatchNow joined)).machine.agenda.loops,
      task.context.IsPlain := by
  match n with
  | 0 => decide +kernel
  | 1 => decide +kernel
  | 2 => decide +kernel
  | n + 3 =>
      have quiet : (tick^[3] ((collecting true).dispatchNow joined)).machine.agenda.loops.isEmpty ∧
          (tick^[3] ((collecting true).dispatchNow joined)).machine.agenda.delays.isEmpty ∧
          (tick^[3] ((collecting true).dispatchNow joined)).inbox.isEmpty := by
        decide +kernel
      simp only [List.isEmpty_iff] at quiet
      rw [Function.iterate_add_apply, iterate_tick_loops quiet.1 quiet.2.1 quiet.2.2]
      exact fun task mem => absurd mem List.not_mem_nil

/-- After three ticks the loop over ticks has come to what the loop at once comes to. -/
theorem spread_equivalent_collecting :
    (∃ n, (tick^[n] ((collecting true).dispatch joined)).IsIdle) ∧
      SameResult (tick^[3] ((collecting true).dispatch joined)) ((collecting false).dispatch joined)
        ⟨1⟩ := by
  have functions : (collector false).rebuildFunctions.functions =
      (collector true).rebuildFunctions.functions :=
    Table.ext fun name =>
      (get?_functions_collector false name).trans (get?_functions_collector true name).symm
  have known : ∀ name b, (collector true).rebuildFunctions.functions.get? name = some b →
      Block.Prompt [b] := by
    intro name b found
    rw [get?_functions_collector] at found
    cases found
  have prompt : Block.Prompt collector.collected.body := by
    unfold Block.Prompt
    decide +kernel
  have loading (isAsync : Bool) :
      (collecting isAsync).ensureLoaded joined.actor = .ok (true, collecting isAsync) := rfl
  have nothing : Block.Prompt collector.collected.before := fun b mem => absurd mem List.not_mem_nil
  have limits : (collecting false).limits = (collecting true).limits := rfl
  have machine : (collecting false).machine = (collecting true).machine := rfl
  obtain ⟨ends, same⟩ := spread_equivalent atRest_collecting rfl limits machine rfl (loading true)
    (loading false) (stages_collecting true) (stages_collecting false) rfl functions nothing prompt
    known isPlain_collecting
  have quiet : (tick^[3] ((collecting true).dispatch joined)).machine.agenda.loops.isEmpty ∧
      (tick^[3] ((collecting true).dispatch joined)).inbox.isEmpty := by
    decide +kernel
  exact ⟨ends, (same 3 ⟨List.isEmpty_iff.mp quiet.2, List.isEmpty_iff.mp quiet.1⟩).2 rfl⟩

end Session

end Blockwork
