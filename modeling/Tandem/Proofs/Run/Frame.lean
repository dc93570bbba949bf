import Tandem.Proofs.Script.Running
import Tandem.Proofs.Sync.Policy
import Tandem.Run.Executor

/-!
# What the steps of a turn do

A turn changes an executor, the script and the list of deeds, and each of its steps changes
little of that. Three views say how little :

* `Executor.core` is the part of an executor that decides how its run goes on. Recording,
  showing and carrying out commands leave it as it is;
* the script with its running flags cleared is never changed (`Script.clearRunning`);
* a `Watch` looks out for deeds of one kind, and `Turn.seen` lists what it has seen, in order.

There is one equation for each step and each view, so nothing else unfolds the steps.
-/

namespace Tandem

/-- The part of an executor that decides how its run goes on. -/
structure Core where
  phase : Phase
  policy : SyncPolicy
  waitCommand : String
  cursor : Cursor
  pending : Pending
  age : Option Float32
  cleanupDue : Bool

namespace Core

/-- A run is in progress. -/
def isRunning (c : Core) : Bool :=
  c.phase = .running || c.phase = .waitingForPeer

/-- How waiting is cut into ticks. -/
def waitRule (c : Core) : WaitRule :=
  ⟨c.waitCommand, c.policy.timings.ticksPerSecond⟩

/-- Everything that the run has left behind is put back. -/
def cleaned (c : Core) : Core :=
  { c with
    phase := .idle
    policy := c.policy.reset
    cursor := .start
    pending := .nothing
    age := none
    cleanupDue := false }

/-- The run has ended, and is cleaned up if the other device has finished before. -/
def ended (c : Core) (outcome : Phase) : Core :=
  let c := { c with phase := outcome, policy := c.policy.stop, pending := .nothing }
  if c.policy.peerFinished then c.cleaned else { c with cleanupDue := true }

/-- A run has begun. -/
def begun (c : Core) : Core :=
  { c with
    phase := .running
    policy := c.policy.start
    cursor := .start
    pending := .nothing
    age := none
    cleanupDue := false }

/-- A tick has been made. -/
def ticked (c : Core) (kind : TickClass) : Core :=
  { c with
    policy := (c.policy.afterTick kind).1
    cursor := c.cursor.consume
    pending := .nothing
    age := some 0 }

/-- A tick has been held back until the other device releases this one. -/
def heldBack (c : Core) : Core :=
  { c with phase := .waitingForPeer, policy := c.policy.handedOver, pending := .peer }

end Core

/-- The part of the executor that decides how its run goes on. -/
def Executor.core {α : Type} (e : Executor α) : Core :=
  ⟨e.phase, e.policy, e.waitCommand, e.cursor, e.pending, e.age, e.cleanupDue⟩

/-- Something to look out for among deeds. Lines that are written out are never it. -/
structure Watch (β : Type) where
  see : Deed → Option β
  see_logged : ∀ line, see (.effect (.logged line)) = none

namespace Watch

variable {β : Type} (w : Watch β)

/-- What is seen of an event. -/
def ofEvent (e : RunEvent) : List β := (w.see (.event e)).toList

/-- What is seen of an effect. -/
def ofEffect (e : Effect) : List β := (w.see (.effect e)).toList

/-- What is seen of a command of that origin. -/
def ofCommand (name : String) (args : List String) (remote : Bool) : List β :=
  w.ofEvent (.dispatched (Turn.commandText name args) remote)

/-- What is seen of a tick and its command. -/
def ofTick (tick : Tick) (kind : TickClass) (age : Option Float32) : List β :=
  (w.see (.tick tick kind age)).toList ++ (w.ofEvent (.tick tick.top tick.name tick.wait) ++
    if tick.wait then [] else w.ofCommand tick.name tick.args false)

/-- What is seen when the other device is released, if it is to be. -/
def ofRelease (sending : Bool) : List β :=
  if sending then w.ofEffect (.sent .unlock) ++ w.ofEvent .unlockSent else []

/-- What is seen when a run is cleaned up. -/
def ofCleanup : List β := w.ofEffect (.runShown false) ++ w.ofEvent .cleanup

/-- What is seen when a run of so many commands starts. -/
def ofStart (mode : SyncMode) (role : Role) (commands : Nat) : List β :=
  w.ofEffect (.runShown true) ++ w.ofEvent (.runStarted mode role commands)

/-- What is seen when a run ends, after the run of the other device if `last` is set. -/
def ofEnd (outcome : Phase) (last : Bool) : List β :=
  w.ofEvent (Turn.endEvent outcome) ++ (w.ofEffect (.sent .finish) ++ (w.ofEvent .finishSent ++
    if last then w.ofCleanup else w.ofEvent .cleanupDeferred))

/-- What one watch sees can be read off what another one sees, if it can be so for each deed. -/
theorem filterMap_see {γ : Type} {w : Watch β} {w' : Watch γ} {g : β → Option γ}
    (h : ∀ d, w'.see d = (w.see d).bind g) (ds : List Deed) :
    ds.filterMap w'.see = (ds.filterMap w.see).filterMap g := by
  rw [List.filterMap_filterMap]
  exact List.filterMap_congr fun d _ => h d

/-- The watch sees the same of a command whatever comes of it. -/
structure TakesCommandsAlike : Prop where
  performed : ∀ remote name args understood,
    w.see (.effect (.performed remote name args understood)) = none
  sent : ∀ name args, w.see (.effect (.sent (.command name args))) = none
  deadAvatar : ∀ command remote,
    w.see (.event (.deadAvatar command remote)) = w.see (.event (.dispatched command remote))
  unrecognized : ∀ command remote,
    w.see (.event (.unrecognized command remote)) = w.see (.event (.dispatched command remote))

end Watch

namespace Turn

variable {α β : Type}

/-- What the watch has seen in the turn so far. -/
def seen (t : Turn α) (w : Watch β) : List β :=
  t.deeds.toList.filterMap w.see

/-! ## Recording and sending -/

section Plain

variable (t : Turn α) (w : Watch β)

theorem seen_clearRunning : t.clearRunning.seen w = t.seen w := rfl

theorem seen_mapExec (f : Executor α → Executor α) : (t.mapExec f).seen w = t.seen w := rfl

/-- An effect is seen at the end. -/
theorem seen_emit (e : Effect) : (t.emit e).seen w = t.seen w ++ w.ofEffect e := by
  simp only [seen, emit, Watch.ofEffect, Array.toList_push, List.filterMap_append]
  cases h : w.see (.effect e) <;> simp [h]

theorem seen_send (m : Message) : (t.send m).seen w = t.seen w ++ w.ofEffect (.sent m) :=
  t.seen_emit w (.sent m)

/-- Of the lines of the log nothing is seen. -/
theorem filterMap_foldl_logged : ∀ (lines : List LogLine) (ds : Array Deed),
    (lines.foldl (fun ds line => ds.push (.effect (.logged line))) ds).toList.filterMap w.see =
      ds.toList.filterMap w.see
  | [], ds => rfl
  | line :: lines, ds => by
    rw [List.foldl_cons, filterMap_foldl_logged lines, Array.toList_push, List.filterMap_append]
    simp [w.see_logged]

/-- Of an event that is recorded, the event is seen. -/
theorem seen_record (e : RunEvent) : (t.record e).seen w = t.seen w ++ w.ofEvent e := by
  simp only [seen, record, Watch.ofEvent, filterMap_foldl_logged, Array.toList_push,
    List.filterMap_append]
  cases h : w.see (.event e) <;> simp [h]

/-- A tick is seen when it is noted. -/
theorem seen_noteTick (tick : Tick) (kind : TickClass) :
    (t.noteTick tick kind).seen w = t.seen w ++ (w.see (.tick tick kind t.exec.age)).toList := by
  simp only [seen, noteTick, Array.toList_push, List.filterMap_append]
  cases h : w.see (.tick tick kind t.exec.age) <;> simp [h]

theorem core_record (e : RunEvent) : (t.record e).exec.core = t.exec.core := rfl

theorem core_emit (e : Effect) : (t.emit e).exec.core = t.exec.core := rfl

theorem core_clearRunning : t.clearRunning.exec.core = t.exec.core := rfl

theorem script_record (e : RunEvent) : (t.record e).script = t.script := rfl

theorem script_emit (e : Effect) : (t.emit e).script = t.script := rfl

theorem script_mapExec (f : Executor α → Executor α) : (t.mapExec f).script = t.script := rfl

/-- To clear the running flags changes no more than these. -/
theorem script_clearRunning : t.clearRunning.script.clearRunning = t.script.clearRunning :=
  t.script.clearRunning_clearRunning

/-- A release is seen if it is sent. -/
theorem seen_sendUnlockIf (sending : Bool) :
    (t.sendUnlockIf sending).seen w = t.seen w ++ w.ofRelease sending := by
  cases sending
  · simp [sendUnlockIf, Watch.ofRelease]
  · simp [sendUnlockIf, Watch.ofRelease, seen_record, seen_send]

end Plain

/-! ## Showing -/

/-- From the first turn to the second, nothing but what is shown as running has changed. -/
structure ShowsOnly (t t' : Turn α) : Prop where
  core : t'.exec.core = t.exec.core
  mayRun : t'.exec.mayRun = t.exec.mayRun
  own : t'.exec.own = t.exec.own
  rival : t'.exec.rival = t.exec.rival
  deeds : t'.deeds = t.deeds
  script : t'.script.clearRunning = t.script.clearRunning

namespace ShowsOnly

theorem refl (t : Turn α) : ShowsOnly t t :=
  ⟨rfl, rfl, rfl, rfl, rfl, rfl⟩

theorem trans {t t' t'' : Turn α} (h : ShowsOnly t t') (h' : ShowsOnly t' t'') :
    ShowsOnly t t'' :=
  ⟨h'.core.trans h.core, h'.mayRun.trans h.mayRun, h'.own.trans h.own, h'.rival.trans h.rival,
    h'.deeds.trans h.deeds, h'.script.trans h.script⟩

/-- What only shows something is not seen. -/
theorem seen {t t' : Turn α} (h : ShowsOnly t t') (w : Watch β) : t'.seen w = t.seen w := by
  rw [Turn.seen, Turn.seen, h.deeds]

end ShowsOnly

theorem showsOnly_showRunning (t : Turn α) (path : Option Path) (value : Bool) :
    ShowsOnly t (t.showRunning path value) := by
  cases path with
  | none => exact .refl t
  | some path => exact ⟨rfl, rfl, rfl, rfl, rfl, t.script.clearRunning_setRunning path value⟩

theorem showsOnly_shownTop (t : Turn α) (top : Option Nat) :
    ShowsOnly t (t.mapExec fun e => { e with shownTop := top }) :=
  ⟨rfl, rfl, rfl, rfl, rfl, rfl⟩

theorem showsOnly_shownChild (t : Turn α) (child : Option Path) :
    ShowsOnly t (t.mapExec fun e => { e with shownChild := child }) :=
  ⟨rfl, rfl, rfl, rfl, rfl, rfl⟩

theorem showsOnly_hideChild (t : Turn α) : ShowsOnly t t.hideChild :=
  (t.showsOnly_showRunning _ _).trans (showsOnly_shownChild _ _)

/-- To hide what is shown changes nothing else. -/
theorem showsOnly_hideActive (t : Turn α) : ShowsOnly t t.hideActive :=
  t.showsOnly_hideChild.trans ((showsOnly_showRunning _ _ _).trans (showsOnly_shownTop _ _))

theorem showsOnly_showTop (t : Turn α) (top : Nat) : ShowsOnly t (t.showTop top) := by
  unfold showTop
  split
  · exact .refl t
  · exact t.showsOnly_hideActive.trans
      ((showsOnly_showRunning _ _ _).trans (showsOnly_shownTop _ _))

theorem showsOnly_showChild (t : Turn α) (child : Option Path) :
    ShowsOnly t (t.showChild child) := by
  unfold showChild
  split
  · exact .refl t
  · exact t.showsOnly_hideChild.trans
      ((showsOnly_showRunning _ _ _).trans (showsOnly_shownChild _ _))

theorem showsOnly_showActive (t : Turn α) (path : Path) : ShowsOnly t (t.showActive path) :=
  (t.showsOnly_showTop _).trans (showsOnly_showChild _ _)

/-! ## The beginning and the end of a run -/

section Ends

variable (t : Turn α) (w : Watch β)

/-- A cleanup leaves the core cleaned. -/
theorem core_cleanup : t.cleanup.exec.core = t.exec.core.cleaned := by
  rw [← t.showsOnly_hideActive.core]
  rfl

theorem script_cleanup : t.cleanup.script.clearRunning = t.script.clearRunning := by
  rw [← t.showsOnly_hideActive.script]
  exact t.hideActive.script.clearRunning_clearRunning

/-- A cleanup is seen. -/
theorem seen_cleanup : t.cleanup.seen w = t.seen w ++ w.ofCleanup := by
  rw [← t.showsOnly_hideActive.seen w, cleanup, seen_record, seen_emit, List.append_assoc]
  rfl

/-- The end of a run leaves the core ended. -/
theorem core_finish (outcome : Phase) :
    (t.finish outcome).exec.core = t.exec.core.ended outcome := by
  rw [← t.showsOnly_hideActive.core]
  unfold finish Core.ended
  dsimp only
  split
  · next h => rw [core_cleanup, if_pos (by exact h)]; rfl
  · next h => rw [if_neg (by exact h)]; rfl

theorem script_finish (outcome : Phase) :
    (t.finish outcome).script.clearRunning = t.script.clearRunning := by
  rw [← t.showsOnly_hideActive.script]
  unfold finish
  dsimp only
  split
  · rw [script_cleanup]; rfl
  · rfl

/-- The end of a run is seen, and its cleanup if the other device has finished. -/
theorem seen_finish (outcome : Phase) :
    (t.finish outcome).seen w = t.seen w ++ w.ofEnd outcome t.exec.policy.peerFinished := by
  have hp : t.hideActive.exec.policy = t.exec.policy :=
    congrArg Core.policy t.showsOnly_hideActive.core
  rw [← t.showsOnly_hideActive.seen w, ← hp]
  unfold finish Watch.ofEnd
  dsimp only
  split
  · next h =>
    rw [if_pos (by exact h)]
    simp only [seen_cleanup, seen_record, seen_send, seen_mapExec, List.append_assoc]
  · next h =>
    rw [if_neg (by exact h)]
    simp only [seen_record, seen_send, seen_mapExec, List.append_assoc]

theorem core_started : (t.mapExec Executor.started).exec.core =
    { t.exec.core.begun with cleanupDue := t.exec.core.cleanupDue } := rfl

/-- A run begins with the core begun. -/
theorem core_begin : t.begin.exec.core = t.exec.core.begun := by
  unfold begin
  dsimp only
  rw [core_record, core_emit, core_clearRunning, core_started]
  split
  · rw [core_cleanup]
    rfl
  · next h =>
    have h : t.exec.cleanupDue = false := Bool.eq_false_iff.mpr h
    rw [show t.nextUpdate.exec.core.cleanupDue = false from h]
    rfl

theorem script_begin : t.begin.script.clearRunning = t.script.clearRunning := by
  unfold begin
  dsimp only
  rw [script_record, script_emit, script_clearRunning, script_mapExec]
  split
  · rw [script_cleanup]
    rfl
  · rfl

/-- The start of a run is seen, after the cleanup that was due. -/
theorem seen_begin :
    t.begin.seen w = t.seen w ++ ((if t.exec.cleanupDue then w.ofCleanup else []) ++
      w.ofStart t.exec.policy.mode t.exec.policy.role t.script.clearRunning.length) := by
  unfold begin
  dsimp only
  rw [seen_record, seen_emit, seen_clearRunning, seen_mapExec]
  cases h : t.exec.cleanupDue
  · rw [if_neg (show ¬t.nextUpdate.exec.cleanupDue = true from Bool.eq_false_iff.mp h)]
    simp only [List.append_assoc]
    rfl
  · rw [if_pos (show t.nextUpdate.exec.cleanupDue = true from h), seen_cleanup]
    have hc : t.nextUpdate.cleanup.exec.core = t.exec.core.cleaned := t.nextUpdate.core_cleanup
    have hm : (t.nextUpdate.cleanup.mapExec Executor.started).clearRunning.exec.policy.mode =
        t.exec.policy.mode := congrArg (fun c => c.policy.mode) hc
    have hr : (t.nextUpdate.cleanup.mapExec Executor.started).clearRunning.exec.policy.role =
        t.exec.policy.role := congrArg (fun c => c.policy.role) hc
    have hs : (t.nextUpdate.cleanup.mapExec Executor.started).clearRunning.script =
        t.script.clearRunning := t.nextUpdate.script_cleanup
    rw [hm, hr, hs]
    simp only [List.append_assoc]
    rfl

/-- The beginning of a run leaves the avatars as they are. -/
theorem crew_begin : t.begin.exec.own = t.exec.own ∧ t.begin.exec.rival = t.exec.rival := by
  unfold begin
  dsimp only
  split
  · exact ⟨t.nextUpdate.showsOnly_hideActive.own, t.nextUpdate.showsOnly_hideActive.rival⟩
  · exact ⟨rfl, rfl⟩

theorem crew_finish (outcome : Phase) : (t.finish outcome).exec.own = t.exec.own ∧
    (t.finish outcome).exec.rival = t.exec.rival := by
  have h := t.showsOnly_hideActive
  unfold finish
  dsimp only
  split
  · have h' := showsOnly_hideActive
      ((((t.hideActive.mapExec (·.stopped outcome)).record (endEvent outcome)).send .finish).record
        .finishSent)
    exact ⟨h'.own.trans h.own, h'.rival.trans h.rival⟩
  · exact ⟨h.own, h.rival⟩

end Ends

/-! ## Commands -/

section Commands

variable [Avatar α] (t : Turn α) (w : Watch β) (name : String) (args : List String) (remote : Bool)

/-- What is performed does not touch the core. -/
theorem core_perform : (t.perform name args remote).1.exec.core = t.exec.core := by
  unfold perform
  split
  · rfl
  · split <;> rfl

theorem script_perform : (t.perform name args remote).1.script = t.script := by
  unfold perform
  split
  · rfl
  · split <;> rfl

/-- What is performed is not seen. -/
theorem seen_perform (hw : w.TakesCommandsAlike) :
    (t.perform name args remote).1.seen w = t.seen w := by
  have he : ∀ remote understood, w.ofEffect (.performed remote name args understood) = [] :=
    fun remote understood => by rw [Watch.ofEffect, hw.performed]; rfl
  unfold perform
  split
  · simp only [performOwn, performRival, seen_emit, seen_mapExec, he, List.append_nil]
  · split
    · simp only [performRival, seen_emit, seen_mapExec, he, List.append_nil]
    · simp only [performOwn, seen_emit, seen_mapExec, he, List.append_nil]

/-- A steady avatar knows the same lock commands after a command. -/
theorem isLock_perform [Avatar.Steady α] (other : String) :
    Avatar.isLock (t.perform name args remote).1.exec.own other =
      Avatar.isLock t.exec.own other := by
  unfold perform
  split
  · exact Avatar.Steady.isLock_perform t.exec.own name args other
  · split
    · rfl
    · exact Avatar.Steady.isLock_perform t.exec.own name args other

/-- What is dispatched does not touch the core. -/
theorem core_dispatch : (t.dispatch name args remote).1.exec.core = t.exec.core := by
  unfold dispatch
  split
  · rfl
  · rw [← t.core_perform name args remote]
    cases remote <;> rfl

theorem script_dispatch : (t.dispatch name args remote).1.script = t.script := by
  unfold dispatch
  split
  · rfl
  · rw [← t.script_perform name args remote]
    cases remote <;> rfl

/-- Of a command that is dispatched, the command is seen. -/
theorem seen_dispatch (hw : w.TakesCommandsAlike) :
    (t.dispatch name args remote).1.seen w = t.seen w ++ w.ofCommand name args remote := by
  have hs : w.ofEffect (.sent (.command name args)) = [] := by
    rw [Watch.ofEffect, hw.sent]
    rfl
  unfold dispatch
  split
  · rw [seen_record, Watch.ofEvent, hw.deadAvatar]
    rfl
  · have hr : ∀ understood : Bool, w.ofEvent (if understood then
        .dispatched (commandText name args) remote
        else .unrecognized (commandText name args) remote) = w.ofCommand name args remote := by
      intro understood
      cases understood
      · exact congrArg Option.toList (hw.unrecognized _ _)
      · rfl
    dsimp only
    split
    · rw [seen_record, hr, seen_perform t w name args remote hw]
    · rw [seen_send, hs, List.append_nil, seen_record, hr, seen_perform t w name args remote hw]

theorem isLock_dispatch [Avatar.Steady α] (other : String) :
    Avatar.isLock (t.dispatch name args remote).1.exec.own other =
      Avatar.isLock t.exec.own other := by
  unfold dispatch
  split
  · rfl
  · rw [← t.isLock_perform name args remote other]
    cases remote <;> rfl

end Commands

/-! ## Ticks -/

section Ticks

variable [Avatar α] (t : Turn α) (w : Watch β) (tick : Tick)

/-- Either the tick is let through and nothing changes, or it has to wait for some time, or it
is held back until the other device releases this one. -/
theorem passGate_cases :
    (t.passGate tick = (t, true) ∧
      (t.exec.pending = .ready ∨ ((t.tickClass tick).lock = true → t.exec.policy.isOpen))) ∨
    (∃ delay, t.passGate tick = (t.mapExec fun e => { e with pending := .pacing delay }, false) ∧
      timeSlack < delay ∧ ((t.tickClass tick).lock = true → t.exec.policy.isOpen)) ∨
    (∃ t', t.passGate tick = (t', false) ∧ ¬t.exec.policy.isOpen ∧
      t'.exec.core = t.exec.core.heldBack ∧ t'.script = t.script ∧
      ∀ {β : Type} (w : Watch β), t'.seen w =
        t.seen w ++ (w.ofRelease t.exec.policy.owesRelease ++
          w.ofEvent (.waitingForPeer tick.top))) := by
  by_cases hr : t.exec.pending = .ready
  · exact Or.inl ⟨by rw [passGate, if_pos hr], Or.inl hr⟩
  · rw [passGate, if_neg hr]
    obtain ⟨delay, h, hopen⟩ | ⟨-, hshut, h⟩ :=
      t.exec.policy.beforeTick_cases (t.tickClass tick) t.exec.age
    · rw [h]
      by_cases hd : timeSlack < delay
      · exact Or.inr (Or.inl ⟨delay, by simp only [if_pos hd]; rfl, hd, hopen⟩)
      · exact Or.inl ⟨by simp only [if_neg hd]; rfl, Or.inr hopen⟩
    · rw [h]
      refine Or.inr (Or.inr ⟨_, rfl, hshut, ?_, ?_, fun w => ?_⟩)
      · cases t.exec.policy.owesRelease <;> rfl
      · cases t.exec.policy.owesRelease <;> rfl
      · rw [seen_record, seen_mapExec, seen_sendUnlockIf, List.append_assoc]
        rfl

theorem core_carryOut (kind : TickClass) : (t.carryOut tick kind).exec.core = t.exec.core := by
  have h := (t.showsOnly_showActive tick.path).core
  unfold carryOut
  dsimp only
  split
  · exact h
  · rw [core_dispatch]
    exact h

theorem script_carryOut (kind : TickClass) :
    (t.carryOut tick kind).script.clearRunning = t.script.clearRunning := by
  have h := (t.showsOnly_showActive tick.path).script
  unfold carryOut
  dsimp only
  split
  · exact h
  · rw [script_dispatch]
    exact h

/-- Of a tick that is carried out, the tick is seen with its command. -/
theorem seen_carryOut (hw : w.TakesCommandsAlike) (kind : TickClass) :
    (t.carryOut tick kind).seen w = t.seen w ++ w.ofTick tick kind t.exec.age := by
  have h := t.showsOnly_showActive tick.path
  have ha : (t.showActive tick.path).exec.age = t.exec.age := congrArg Core.age h.core
  rw [← h.seen w, ← ha]
  unfold carryOut Watch.ofTick
  dsimp only
  split
  · rw [seen_record, seen_noteTick, List.append_nil, List.append_assoc]
  · rw [seen_dispatch _ _ _ _ _ hw, seen_record, seen_noteTick]
    simp only [List.append_assoc]

omit [Avatar α] in
/-- After a tick the policy has posted it, and nothing is pending. -/
theorem core_passOver (kind : TickClass) : (t.passOver kind).exec.core =
    { t.exec.core.ticked kind with pending := t.exec.core.pending } := by
  unfold passOver
  dsimp only
  cases (t.exec.policy.afterTick kind).2 <;> rfl

omit [Avatar α] in
theorem script_passOver (kind : TickClass) : (t.passOver kind).script = t.script := by
  unfold passOver
  dsimp only
  cases (t.exec.policy.afterTick kind).2 <;> rfl

omit [Avatar α] in
/-- Behind a tick its release is seen. -/
theorem seen_passOver (kind : TickClass) :
    (t.passOver kind).seen w = t.seen w ++ w.ofRelease (t.exec.policy.releasesAfter kind) := by
  unfold passOver
  rw [SyncPolicy.afterTick_eq]
  exact (t.setPolicy _).seen_sendUnlockIf w _

/-- A tick leaves the core ticked. -/
theorem core_makeTick :
    (t.makeTick tick).exec.core = t.exec.core.ticked (t.tickClass tick) := by
  unfold makeTick
  dsimp only
  rw [core_emit, core_passOver, core_carryOut]
  rfl

theorem script_makeTick : (t.makeTick tick).script.clearRunning = t.script.clearRunning := by
  unfold makeTick
  dsimp only
  rw [script_emit, script_passOver, script_carryOut]
  rfl

/-- Of a tick are seen the tick, its release, and the step that is shown. -/
theorem seen_makeTick (hw : w.TakesCommandsAlike) :
    (t.makeTick tick).seen w = t.seen w ++ (w.ofTick tick (t.tickClass tick) t.exec.age ++
      (w.ofRelease (t.exec.policy.releasesAfter (t.tickClass tick)) ++
        w.ofEffect (.stepShown tick.top))) := by
  unfold makeTick
  dsimp only
  rw [seen_emit, seen_passOver, seen_carryOut _ _ _ hw, seen_mapExec]
  have hc := (t.mapExec fun e => { e with pending := .nothing }).core_carryOut tick
    (t.tickClass tick)
  rw [show (Turn.carryOut _ tick (t.tickClass tick)).exec.policy = t.exec.policy from
    congrArg Core.policy hc]
  simp only [List.append_assoc]
  rfl

end Ticks

/-! ## Time -/

section Time

variable (t : Turn α) (dt : Float32)

/-- While time passes, only the policy, the phase and what the next tick waits for can change, and
only a lock that was held for too long can be recorded. -/
theorem passTime_eq : ∃ (policy : SyncPolicy) (phase : Phase) (pending : Pending)
    (late : Option Float32),
    (t.passTime dt).1 = (late.elim t fun held => t.record (.lockTimeout held)).mapExec
      (fun e => { e with policy, phase, pending }) ∧
    (policy = t.exec.policy ∨ policy = (t.exec.policy.waitFor dt).1) ∧
    (phase = t.exec.phase ∨ phase = .running) := by
  unfold passTime
  split
  · dsimp only
    split
    · exact ⟨_, _, _, none, rfl, Or.inl rfl, Or.inl rfl⟩
    · exact ⟨_, _, _, none, rfl, Or.inl rfl, Or.inl rfl⟩
  · dsimp only
    split
    · exact ⟨_, _, _, none, rfl, Or.inr rfl, Or.inl rfl⟩
    · exact ⟨_, _, _, none, rfl, Or.inr rfl, Or.inr rfl⟩
    · next held _ => exact ⟨_, _, _, some held, rfl, Or.inr rfl, Or.inr rfl⟩
  · exact ⟨_, _, _, none, rfl, Or.inl rfl, Or.inl rfl⟩
  · exact ⟨_, _, _, none, rfl, Or.inl rfl, Or.inl rfl⟩

theorem script_passTime : (t.passTime dt).1.script = t.script := by
  obtain ⟨policy, phase, pending, late, h, -⟩ := t.passTime_eq dt
  rw [h]
  cases late <;> rfl

/-- A watch that does not look out for locks held too long sees nothing while time passes. -/
theorem seen_passTime (w : Watch β) (hw : ∀ held, w.ofEvent (.lockTimeout held) = []) :
    (t.passTime dt).1.seen w = t.seen w := by
  obtain ⟨policy, phase, pending, late, h, -⟩ := t.passTime_eq dt
  rw [h, seen_mapExec]
  cases late with
  | none => rfl
  | some held => exact (t.seen_record w _).trans (by rw [hw, List.append_nil])

variable {t}

/-- A run goes on while time passes. -/
theorem isRunning_passTime (hr : t.exec.isRunning = true) :
    (t.passTime dt).1.exec.isRunning = true := by
  obtain ⟨policy, phase, pending, late, h, -, hphase⟩ := t.passTime_eq dt
  rw [h]
  obtain rfl | rfl := hphase
  · exact hr
  · rfl

end Time

end Turn

end Tandem
