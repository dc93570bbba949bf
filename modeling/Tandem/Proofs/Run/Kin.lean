import Tandem.Proofs.Run.Career
import Tandem.Proofs.Script.Alike

/-!
# Runs of kin

What an executor does never depends on its log, and depends on its rival only in so far as a command
may find it dead or be understood by it. So two executors that differ in these, over scripts that
run alike, do alike what they are ordered to do.

How far their rivals and scripts may differ, and what is looked at of what they do, is a `Kinship` :
a relation between scripts that running flags respect, a relation between rivals that commands
respect, and a watch that does not tell related rivals apart. Turns that are kin stay kin whatever
they are ordered to do (`Turn.Kin.obey`), as long as the commands of the other device find both
rivals dead or neither.
-/

namespace Tandem

/-- The event that tells whether a command was understood. -/
def RunEvent.verdict (command : String) (remote understood : Bool) : RunEvent :=
  if understood then .dispatched command remote else .unrecognized command remote

/-- How scripts and rivals may differ between turns that do alike, and what is looked at. -/
structure Kinship (α β : Type) [Avatar α] where
  scripts : Script → Script → Prop
  rivals : α → α → Prop
  watch : Watch β
  refl : ∀ s, scripts s s
  disabled : ∀ {s s'}, scripts s s' → s.Alike Flags.disabled s'
  setRunning : ∀ {s s'} path value, scripts s s' →
    scripts (s.setRunning path value) (s'.setRunning path value)
  clearRunning : ∀ {s s'}, scripts s s' → scripts s.clearRunning s'.clearRunning
  perform : ∀ {a a'} name args, rivals a a' →
    rivals (Avatar.perform a name args).avatar (Avatar.perform a' name args).avatar
  stopsRun : ∀ {a a'} name args, rivals a a' →
    (Avatar.perform a name args).stopsRun = (Avatar.perform a' name args).stopsRun
  /-- What is seen of a command that is handed to the rival. -/
  handed : ∀ {a a'} name args, rivals a a' →
    watch.ofEffect (.performed true name args (Avatar.perform a name args).understood) =
      watch.ofEffect (.performed true name args (Avatar.perform a' name args).understood)
  /-- What is seen of a command that the rival has understood or not, and the own avatar if it was
  handed to both. -/
  told : ∀ {a a'} name args, rivals a a' → ∀ (own : Bool) command remote,
    watch.ofEvent (.verdict command remote (own && (Avatar.perform a name args).understood)) =
      watch.ofEvent (.verdict command remote (own && (Avatar.perform a' name args).understood))

namespace Turn

variable {α β : Type} [Avatar α]

/-- The turns are those of executors whose rivals are related and that else differ in their logs at
most, over related scripts. As far as the watch sees, the first one has done what the second one
has, and something more before that. -/
structure Kin (k : Kinship α β) (before : List β) (t t' : Turn α) : Prop where
  exec : t.exec = { t'.exec with rival := t.exec.rival, log := t.exec.log }
  rivals : k.rivals t.exec.rival t'.exec.rival
  script : k.scripts t.script t'.script
  deeds : t.seen k.watch = before ++ t'.seen k.watch

namespace Kin

variable {k : Kinship α β} {before : List β} {t t' : Turn α}

/-! ## What kin agree in -/

section Agree

variable (h : Kin k before t t')

include h

/-- Kin have the same policy. -/
theorem policy : t.exec.policy = t'.exec.policy := by rw [h.exec]

theorem cursor : t.exec.cursor = t'.exec.cursor := by rw [h.exec]

theorem pending : t.exec.pending = t'.exec.pending := by rw [h.exec]

theorem age : t.exec.age = t'.exec.age := by rw [h.exec]

theorem shownTop : t.exec.shownTop = t'.exec.shownTop := by rw [h.exec]

theorem shownChild : t.exec.shownChild = t'.exec.shownChild := by rw [h.exec]

theorem cleanupDue : t.exec.cleanupDue = t'.exec.cleanupDue := by rw [h.exec]

theorem mayRun : t.exec.mayRun = t'.exec.mayRun := by rw [h.exec]

theorem own : t.exec.own = t'.exec.own := by rw [h.exec]

theorem waitRule : t.exec.waitRule = t'.exec.waitRule := by
  rw [h.exec]
  rfl

/-- Both are in a run, or neither is. -/
theorem isRunning : t.exec.isRunning = t'.exec.isRunning := by
  rw [h.exec]
  rfl

end Agree

/-! ## The small steps -/

/-- The executor is changed in the same way, whatever its rival and its log are. -/
theorem mapExec (h : Kin k before t t') (f : Executor α → Executor α)
    (hf : ∀ (e : Executor α) (a : α) (log : EventLog),
      f { e with rival := a, log := log } = { f e with rival := a, log := log }) :
    Kin k before (t.mapExec f) (t'.mapExec f) := by
  have hexec := hf t'.exec t.exec.rival t.exec.log
  rw [← h.exec] at hexec
  have hrival : (f t.exec).rival = t.exec.rival := by rw [hexec]
  have hexec' : f t'.exec = { f t'.exec with rival := t'.exec.rival, log := t'.exec.log } :=
    hf t'.exec t'.exec.rival t'.exec.log
  have hrival' : (f t'.exec).rival = t'.exec.rival := by rw [hexec']
  refine ⟨?_, ?_, h.script, h.deeds⟩
  · show f t.exec = { f t'.exec with rival := (f t.exec).rival, log := (f t.exec).log }
    rw [hexec]
  · show k.rivals (f t.exec).rival (f t'.exec).rival
    rw [hrival, hrival']
    exact h.rivals

/-- Both do something, which looks the same. -/
theorem emitAlike (h : Kin k before t t') {e e' : Effect}
    (he : k.watch.ofEffect e = k.watch.ofEffect e') : Kin k before (t.emit e) (t'.emit e') :=
  ⟨h.exec, h.rivals, h.script, by rw [seen_emit, seen_emit, h.deeds, he, List.append_assoc]⟩

theorem emit (h : Kin k before t t') (e : Effect) : Kin k before (t.emit e) (t'.emit e) :=
  h.emitAlike rfl

/-- Both record something, which looks the same. -/
theorem recordAlike (h : Kin k before t t') {e e' : RunEvent}
    (he : k.watch.ofEvent e = k.watch.ofEvent e') : Kin k before (t.record e) (t'.record e') where
  exec := congrArg (fun x : Executor α => { x with log := (t.exec.log.record e).1 }) h.exec
  rivals := h.rivals
  script := h.script
  deeds := by rw [seen_record, seen_record, h.deeds, he, List.append_assoc]

/-- Kin that record the same event stay kin. -/
theorem record (h : Kin k before t t') (e : RunEvent) :
    Kin k before (t.record e) (t'.record e) :=
  h.recordAlike rfl

theorem noteTick (h : Kin k before t t') (tick : Tick) (kind : TickClass) :
    Kin k before (t.noteTick tick kind) (t'.noteTick tick kind) :=
  ⟨h.exec, h.rivals, h.script,
    by rw [seen_noteTick, seen_noteTick, h.deeds, h.age, List.append_assoc]⟩

theorem nextUpdate (h : Kin k before t t') : Kin k before t.nextUpdate t'.nextUpdate where
  exec := congrArg (fun x => { x with log := t.exec.log.nextUpdate }) h.exec
  rivals := h.rivals
  script := h.script
  deeds := h.deeds

theorem setPolicy (h : Kin k before t t') (p : SyncPolicy) :
    Kin k before (t.setPolicy p) (t'.setPolicy p) :=
  h.mapExec _ fun _ _ _ => rfl

theorem setPending (h : Kin k before t t') (p : Pending) :
    Kin k before (t.mapExec fun e => { e with pending := p })
      (t'.mapExec fun e => { e with pending := p }) :=
  h.mapExec _ fun _ _ _ => rfl

theorem setPhase (h : Kin k before t t') (p : Phase) :
    Kin k before (t.mapExec fun e => { e with phase := p })
      (t'.mapExec fun e => { e with phase := p }) :=
  h.mapExec _ fun _ _ _ => rfl

theorem sendUnlockIf (h : Kin k before t t') (sending : Bool) :
    Kin k before (t.sendUnlockIf sending) (t'.sendUnlockIf sending) := by
  cases sending
  · exact h
  · exact (h.emit _).record _

theorem showRunning (h : Kin k before t t') (path : Option Path) (value : Bool) :
    Kin k before (t.showRunning path value) (t'.showRunning path value) := by
  cases path with
  | none => exact h
  | some path => exact ⟨h.exec, h.rivals, k.setRunning path value h.script, h.deeds⟩

theorem clearRunning (h : Kin k before t t') : Kin k before t.clearRunning t'.clearRunning :=
  ⟨h.exec, h.rivals, k.clearRunning h.script, h.deeds⟩

theorem hideChild (h : Kin k before t t') : Kin k before t.hideChild t'.hideChild := by
  rw [Turn.hideChild, Turn.hideChild, h.shownChild]
  exact (h.showRunning _ _).mapExec _ fun _ _ _ => rfl

theorem hideActive (h : Kin k before t t') : Kin k before t.hideActive t'.hideActive := by
  rw [Turn.hideActive, Turn.hideActive, h.hideChild.shownTop]
  exact (h.hideChild.showRunning _ _).mapExec _ fun _ _ _ => rfl

theorem showTop (h : Kin k before t t') (top : Nat) :
    Kin k before (t.showTop top) (t'.showTop top) := by
  rw [Turn.showTop, Turn.showTop, h.shownTop]
  split
  · exact h
  · exact (h.hideActive.showRunning _ _).mapExec _ fun _ _ _ => rfl

theorem showChild (h : Kin k before t t') (child : Option Path) :
    Kin k before (t.showChild child) (t'.showChild child) := by
  rw [Turn.showChild, Turn.showChild, h.shownChild]
  split
  · exact h
  · exact (h.hideChild.showRunning _ _).mapExec _ fun _ _ _ => rfl

/-- Kin show the same. -/
theorem showActive (h : Kin k before t t') (path : Path) :
    Kin k before (t.showActive path) (t'.showActive path) :=
  (h.showTop _).showChild _

/-- Kin that are cleaned up stay kin. -/
theorem cleanup (h : Kin k before t t') : Kin k before t.cleanup t'.cleanup :=
  (((h.hideActive.mapExec _ fun _ _ _ => rfl).clearRunning).emit _).record _

/-- What a run has left behind is put back by both, or by neither. -/
theorem cleanupIfDue (h : Kin k before t t') :
    Kin k before (if t.exec.cleanupDue then t.cleanup else t)
      (if t'.exec.cleanupDue then t'.cleanup else t') := by
  rw [h.cleanupDue]
  split
  · exact h.cleanup
  · exact h

/-- Kin end their runs alike. -/
theorem finish (h : Kin k before t t') (outcome : Phase) :
    Kin k before (t.finish outcome) (t'.finish outcome) := by
  have hsent : Kin k before
      ((((t.hideActive.mapExec (·.stopped outcome)).record (endEvent outcome)).send .finish).record
        .finishSent)
      ((((t'.hideActive.mapExec (·.stopped outcome)).record (endEvent outcome)).send .finish).record
        .finishSent) :=
    (((h.hideActive.mapExec _ fun _ _ _ => rfl).record _).emit _).record _
  unfold Turn.finish
  dsimp only
  rw [hsent.policy]
  split
  · exact hsent.cleanup
  · exact (hsent.mapExec _ fun _ _ _ => rfl).record _

/-! ## Commands and ticks -/

/-- What kin do to their own avatars is the same, and so are the answers. -/
theorem performOwn (h : Kin k before t t') (name : String) (args : List String) :
    Kin k before (t.performOwn name args).1 (t'.performOwn name args).1 ∧
      (t.performOwn name args).2 = (t'.performOwn name args).2 := by
  unfold Turn.performOwn
  rw [h.own]
  exact ⟨(h.mapExec _ fun _ _ _ => rfl).emit _, rfl⟩

/-- Whatever kin do to their rivals, they stay kin. -/
theorem performRival (h : Kin k before t t') (name : String) (args : List String) :
    Kin k before (t.performRival name args).1 (t'.performRival name args).1 := by
  have hexec : ({ t.exec with
        rival := (Avatar.perform t.exec.rival name args).avatar
        mayRun := t.exec.mayRun && !(Avatar.perform t.exec.rival name args).stopsRun } :
          Executor α) =
      { t'.exec with
        rival := (Avatar.perform t.exec.rival name args).avatar
        mayRun := t'.exec.mayRun && !(Avatar.perform t'.exec.rival name args).stopsRun
        log := t.exec.log } := by
    rw [← k.stopsRun name args h.rivals, h.exec]
  have hkin : Kin k before
      (t.mapExec fun e => { e with
        rival := (Avatar.perform t.exec.rival name args).avatar
        mayRun := e.mayRun && !(Avatar.perform t.exec.rival name args).stopsRun })
      (t'.mapExec fun e => { e with
        rival := (Avatar.perform t'.exec.rival name args).avatar
        mayRun := e.mayRun && !(Avatar.perform t'.exec.rival name args).stopsRun }) :=
    ⟨hexec, k.perform name args h.rivals, h.script, h.deeds⟩
  exact hkin.emitAlike (k.handed name args h.rivals)

/-- Kin perform a command alike, but perhaps for what their rivals answer. -/
theorem perform (h : Kin k before t t') (name : String) (args : List String) (remote : Bool) :
    Kin k before (t.perform name args remote).1 (t'.perform name args remote).1 ∧
      ∀ command, k.watch.ofEvent (.verdict command remote (t.perform name args remote).2) =
        k.watch.ofEvent (.verdict command remote (t'.perform name args remote).2) := by
  unfold Turn.perform
  rw [h.own]
  split
  · obtain ⟨hown, hunderstood⟩ := h.performOwn name args
    refine ⟨hown.performRival name args, fun command => ?_⟩
    dsimp only
    rw [hunderstood]
    exact k.told name args hown.rivals _ command remote
  · split
    · exact ⟨h.performRival name args, fun command => k.told name args h.rivals true command _⟩
    · obtain ⟨hown, hunderstood⟩ := h.performOwn name args
      exact ⟨hown, fun command => by rw [hunderstood]⟩

/-- A command of the other device finds both rivals dead, or neither. -/
theorem dispatch (h : Kin k before t t') (name : String) (args : List String) {remote : Bool}
    (hdead : remote = true → Avatar.isDead t.exec.rival = Avatar.isDead t'.exec.rival) :
    Kin k before (t.dispatch name args remote).1 (t'.dispatch name args remote).1 := by
  have hdead : t.targetDead remote = t'.targetDead remote := by
    cases remote with
    | false => exact congrArg Avatar.isDead h.own
    | true => exact hdead rfl
  obtain ⟨hperform, hverdict⟩ := h.perform name args remote
  unfold Turn.dispatch
  dsimp only
  rw [hdead]
  split
  · exact h.record _
  · have htold := hperform.recordAlike (hverdict (commandText name args))
    cases remote
    · exact htold.emit _
    · exact htold

/-- A tick is of the same class for both. -/
theorem tickClass (h : Kin k before t t') (tick : Tick) : t.tickClass tick = t'.tickClass tick := by
  rw [Turn.tickClass, Turn.tickClass, h.own]

/-- A tick comes to the same gate in both. -/
theorem passGate (h : Kin k before t t') (tick : Tick) :
    Kin k before (t.passGate tick).1 (t'.passGate tick).1 ∧
      (t.passGate tick).2 = (t'.passGate tick).2 := by
  unfold Turn.passGate
  rw [h.pending, h.policy, h.age, h.tickClass]
  split
  · exact ⟨h, rfl⟩
  · dsimp only
    have hgate := (h.setPolicy
      (t'.exec.policy.beforeTick (t'.tickClass tick) t'.exec.age).1).sendUnlockIf
      (t'.exec.policy.beforeTick (t'.tickClass tick) t'.exec.age).2.2
    split
    · exact ⟨(hgate.mapExec _ fun _ _ _ => rfl).record _, rfl⟩
    · split
      · exact ⟨hgate.setPending _, rfl⟩
      · exact ⟨hgate, rfl⟩

/-- Kin carry out a tick alike. -/
theorem carryOut (h : Kin k before t t') (tick : Tick) (kind : TickClass) :
    Kin k before (t.carryOut tick kind) (t'.carryOut tick kind) := by
  have hshown := ((h.showActive tick.path).noteTick tick kind).record
    (.tick tick.top tick.name tick.wait)
  unfold Turn.carryOut
  dsimp only
  split
  · exact hshown
  · exact hshown.dispatch _ _ nofun

theorem passOver (h : Kin k before t t') (kind : TickClass) :
    Kin k before (t.passOver kind) (t'.passOver kind) := by
  unfold Turn.passOver
  rw [h.policy]
  exact ((h.setPolicy _).sendUnlockIf _).mapExec _ fun _ _ _ => rfl

/-- Kin make a tick alike. -/
theorem makeTick (h : Kin k before t t') (tick : Tick) :
    Kin k before (t.makeTick tick) (t'.makeTick tick) := by
  unfold Turn.makeTick
  rw [h.tickClass]
  exact (((h.mapExec _ fun _ _ _ => rfl).carryOut tick _).passOver _).emit _

/-! ## Runs -/

/-- Kin make as many ticks as each other. -/
theorem advanceBy : ∀ (n : Nat) {t t' : Turn α}, Kin k before t t' →
    Kin k before (Turn.advanceBy n t) (Turn.advanceBy n t')
  | 0, _, _, h => h
  | n + 1, t, t', h => by
    unfold Turn.advanceBy
    rw [h.mayRun, h.cursor, h.waitRule, (k.disabled h.script).next?_eq]
    split
    · exact h.finish _
    · split
      · exact h.finish _
      · next c tick _ =>
        have hmove : Kin k before (t.moveTo c) (t'.moveTo c) := h.mapExec _ fun _ _ _ => rfl
        obtain ⟨hgate, hpass⟩ := hmove.passGate tick
        -- Both are let through, or neither is.
        generalize (t.moveTo c).passGate tick = g at hgate hpass
        generalize (t'.moveTo c).passGate tick = g' at hgate hpass
        obtain ⟨u, passes⟩ := g
        obtain ⟨u', passes'⟩ := g'
        obtain rfl : passes = passes' := hpass
        cases passes
        · exact hgate
        · exact advanceBy n (Kin.makeTick hgate tick)

/-- Kin advance alike. -/
theorem advance (h : Kin k before t t') : Kin k before t.advance t'.advance := by
  unfold Turn.advance
  rw [(k.disabled h.script).ticks_eq, h.waitRule]
  exact h.advanceBy _

/-- Kin begin their runs alike. -/
theorem begin (h : Kin k before t t') : Kin k before t.begin t'.begin := by
  have hstart := (h.nextUpdate.cleanupIfDue.mapExec Executor.started fun _ _ _ => rfl).clearRunning
  unfold Turn.begin
  dsimp only
  rw [hstart.policy, (k.disabled hstart.script).length_eq]
  exact (hstart.emit _).record _

/-- Kin that are asked for a run are both in one then, or both refuse it. -/
theorem run (h : Kin k before t t') : Kin k before t.run.1 t'.run.1 := by
  unfold Turn.run
  rw [h.isRunning]
  split
  · exact h.record _
  · exact h.begin.advance

theorem startTogether (h : Kin k before t t') :
    Kin k before t.startTogether.1 t'.startTogether.1 := by
  unfold Turn.startTogether
  rw [h.isRunning]
  split
  · exact h.record _
  · exact (h.emit _).run

/-- Time passes alike for kin. -/
theorem passTime (h : Kin k before t t') (dt : Float32) :
    Kin k before (t.passTime dt).1 (t'.passTime dt).1 ∧ (t.passTime dt).2 = (t'.passTime dt).2 := by
  unfold Turn.passTime
  rw [h.pending, h.policy]
  split
  · dsimp only
    split
    · exact ⟨h.setPending _, rfl⟩
    · exact ⟨h.setPending _, rfl⟩
  · dsimp only
    have hwait := h.setPolicy (t'.exec.policy.waitFor dt).1
    split
    · exact ⟨hwait, rfl⟩
    · exact ⟨(hwait.setPhase _).setPending _, rfl⟩
    · exact ⟨((hwait.record _).setPhase _).setPending _, rfl⟩
  · exact ⟨h, rfl⟩
  · exact ⟨h, rfl⟩

/-- Kin update alike. -/
theorem update (h : Kin k before t t') (dt : Float32) :
    Kin k before (t.update dt) (t'.update dt) := by
  unfold Turn.update
  rw [h.isRunning]
  split
  · exact h
  · dsimp only
    rw [h.nextUpdate.mayRun]
    split
    · exact h.nextUpdate.finish _
    · have hage : Kin k before (t.nextUpdate.mapExec fun e => { e with age := e.age.map (· + dt) })
          (t'.nextUpdate.mapExec fun e => { e with age := e.age.map (· + dt) }) :=
        h.nextUpdate.mapExec _ fun _ _ _ => rfl
      obtain ⟨htime, hgo⟩ := hage.passTime dt
      generalize (t.nextUpdate.mapExec _).passTime dt = g at htime hgo
      generalize (t'.nextUpdate.mapExec _).passTime dt = g' at htime hgo
      obtain ⟨u, go⟩ := g
      obtain ⟨u', go'⟩ := g'
      obtain rfl : go = go' := hgo
      cases go
      · exact htime
      · exact htime.advance

/-- Kin are released alike. -/
theorem afterRelease (h : Kin k before t t') : Kin k before t.afterRelease t'.afterRelease := by
  unfold Turn.afterRelease
  dsimp only
  rw [(h.record _).policy]
  exact (h.record _).setPolicy _

/-- Kin hear of the end of the other device alike. -/
theorem afterPeerEnd (h : Kin k before t t') : Kin k before t.afterPeerEnd t'.afterPeerEnd := by
  have hheard := h.record .peerFinished
  unfold Turn.afterPeerEnd
  dsimp only
  rw [hheard.policy]
  exact (hheard.setPolicy _).cleanupIfDue

/-- Kin are interrupted alike. -/
theorem interrupt (h : Kin k before t t') : Kin k before t.interrupt t'.interrupt := by
  unfold Turn.interrupt
  rw [h.isRunning]
  split
  · exact h.finish _
  · exact h

/-- Kin abandon their runs alike. -/
theorem abandon (h : Kin k before t t') : Kin k before t.abandon t'.abandon :=
  ((h.mapExec _ fun _ _ _ => rfl).record _).cleanup

/-- Turns that are kin stay kin. -/
theorem obey (h : Kin k before t t') (o : Order)
    (hdead : ∀ name args, o = .call (.command name args) →
      Avatar.isDead t.exec.rival = Avatar.isDead t'.exec.rival) :
    Kin k before (t.obey o) (t'.obey o) := by
  cases o with
  | lend s => exact ⟨h.exec, h.rivals, k.refl s, h.deeds⟩
  | run => exact h.run
  | startTogether => exact h.startTogether
  | issue name args => exact h.dispatch name args nofun
  | abandon => exact h.abandon
  | call c =>
    cases c with
    | update dt => exact h.update dt
    | release => exact h.afterRelease
    | peerEnd => exact h.afterPeerEnd
    | command name args => exact h.dispatch name args fun _ => hdead name args rfl
    | interrupt => exact h.interrupt
    | clearFlag => exact h.mapExec _ fun _ _ _ => rfl

end Kin

end Turn

end Tandem
