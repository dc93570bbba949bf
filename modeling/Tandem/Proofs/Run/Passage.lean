import Tandem.Proofs.Run.Crew

/-!
# What operations are made of

Whatever an executor is asked to do, it does by three means (`Turn.Passage`) : it records events, it
hands on commands, and it does things that neither the log nor the avatars have anything to do with
(`Turn.Quiet`). So what these three preserve is preserved by every operation on an executor.
In particular, all that becomes of its avatars comes of the commands that are handed to them
(`Turn.Passage.hands`).

Some operations begin another update of the log, and they do so before all else : the start of a
run, and time that passes in a run (`Turn.passage_run`, `Turn.passage_update`).
-/

namespace Tandem

/-- Sees the events. -/
def eventWatch : Watch RunEvent where
  see
    | .event e => some e
    | _ => none
  see_logged _ := rfl

/-- Sees the commands that are handed to the own avatar, or to the rival if `remote` is set. -/
def handWatch (remote : Bool) : Watch Utterance where
  see
    | .effect (.performed rival name args _) => if rival = remote then some (name, args) else none
    | _ => none
  see_logged _ := rfl

/-- The event tells what has come of a command. -/
def RunEvent.isOfCommand : RunEvent → Bool
  | dispatched .. | deadAvatar .. | unrecognized .. => true
  | _ => false

/-- The line that the effect writes, if it writes one. -/
def Effect.line? : Effect → Option LogLine
  | logged line => some line
  | _ => none

/-- The line that the deed writes, if it writes one. -/
def Deed.line? (d : Deed) : Option LogLine :=
  d.effect?.bind Effect.line?

/-- The avatar after it was handed the commands, one after the other. -/
def Avatar.handed {α : Type} [Avatar α] (a : α) (us : List Utterance) : α :=
  us.foldl (fun a u => (perform a u.1 u.2).avatar) a

namespace Turn

variable {α : Type}

/-- The lines written. -/
def lines (t : Turn α) : List LogLine :=
  t.deeds.toList.filterMap Deed.line?

/-- To record an event is a deed, and to write its lines are deeds after it. -/
theorem deeds_record (t : Turn α) (e : RunEvent) : (t.record e).deeds.toList =
    t.deeds.toList ++ .event e ::
      (t.exec.log.record e).2.map fun line => .effect (.logged line) := by
  rw [record, List.foldl_push_eq_append, Array.toList_append, Array.toList_push, List.append_assoc]
  rfl

/-- Of the effects, the log lines are written. -/
theorem lines_emit (t : Turn α) (e : Effect) : (t.emit e).lines = t.lines ++ e.line?.toList := by
  simp only [lines, emit, Array.toList_push, List.filterMap_append]
  cases h : e.line? <;> simp [Deed.line?, Deed.effect?, h]

/-- The turn, with another update of its log if one begins. -/
def nextUpdateIf (t : Turn α) (begins : Bool) : Turn α :=
  if begins then t.nextUpdate else t

/-- From the first turn to the second, nothing is recorded or written, no command is told, and no
avatar is handed one. -/
structure Quiet (t t' : Turn α) : Prop where
  crew : t'.crew = t.crew
  log : t'.exec.log = t.exec.log
  seen : t'.seen eventWatch = t.seen eventWatch
  told : t'.told = t.told
  lines : t'.lines = t.lines
  handed : ∀ remote, t'.seen (handWatch remote) = t.seen (handWatch remote)

/-- From the first turn to the second, events are recorded and commands are handed on, and
everything else that is done is quiet. -/
inductive Passage [Avatar α] : Turn α → Turn α → Prop
  | quiet {t t' : Turn α} : Quiet t t' → Passage t t'
  | record {t : Turn α} (e : RunEvent) : e.isOfCommand = false → Passage t (t.record e)
  | dispatch {t : Turn α} (name : String) (args : List String) (remote : Bool) :
    Passage t (t.dispatch name args remote).1
  | trans {t t' t'' : Turn α} : Passage t t' → Passage t' t'' → Passage t t''

variable [Avatar α]

theorem Passage.refl (t : Turn α) : Passage t t := .quiet ⟨rfl, rfl, rfl, rfl, rfl, fun _ => rfl⟩

/-! ## What is handed to the avatars -/

/-- The own avatar, or the rival if `remote` is set. -/
def avatar (t : Turn α) (remote : Bool) : α :=
  if remote then t.exec.rival else t.exec.own

/-- From the first turn to the second, each avatar has become what the commands that are handed to
it make of it. -/
def Hands (t t' : Turn α) : Prop :=
  ∀ remote, ∃ us, t'.seen (handWatch remote) = t.seen (handWatch remote) ++ us ∧
    t'.avatar remote = Avatar.handed (t.avatar remote) us

namespace Hands

variable {t t' t'' : Turn α}

theorem of_same (hown : t'.exec.own = t.exec.own) (hrival : t'.exec.rival = t.exec.rival)
    (hseen : ∀ remote, t'.seen (handWatch remote) = t.seen (handWatch remote)) : Hands t t' := by
  intro remote
  refine ⟨[], by rw [hseen, List.append_nil], ?_⟩
  rw [avatar, avatar, hown, hrival]
  rfl

/-- What is handed on in two parts is handed on one after the other. -/
theorem trans (h : Hands t t') (h' : Hands t' t'') : Hands t t'' := by
  intro remote
  obtain ⟨us, hseen, havatar⟩ := h remote
  obtain ⟨us', hseen', havatar'⟩ := h' remote
  refine ⟨us ++ us', by rw [hseen', hseen, List.append_assoc], ?_⟩
  rw [havatar', havatar, Avatar.handed, Avatar.handed, Avatar.handed, List.foldl_append]

theorem record (t : Turn α) (e : RunEvent) : Hands t (t.record e) :=
  of_same rfl rfl fun _ => (t.seen_record _ e).trans (List.append_nil _)

/-- What the own avatar performs is handed to it. -/
theorem performOwn (t : Turn α) (name : String) (args : List String) :
    Hands t (t.performOwn name args).1
  | false => ⟨[(name, args)], seen_emit .., rfl⟩
  | true => ⟨[], seen_emit .., rfl⟩

/-- What the rival performs is handed to the rival. -/
theorem performRival (t : Turn α) (name : String) (args : List String) :
    Hands t (t.performRival name args).1
  | false => ⟨[], seen_emit .., rfl⟩
  | true => ⟨[(name, args)], seen_emit .., rfl⟩

/-- A command is handed to the avatars that it is for. -/
theorem dispatch (t : Turn α) (name : String) (args : List String) (remote : Bool) :
    Hands t (t.dispatch name args remote).1 := by
  have hperform : Hands t (t.perform name args remote).1 := by
    unfold Turn.perform
    split
    · exact (performOwn t name args).trans (performRival _ name args)
    · split
      · exact performRival t name args
      · exact performOwn t name args
  unfold Turn.dispatch
  dsimp only
  split
  · exact .record t _
  · cases remote with
    | true => exact hperform.trans (.record _ _)
    | false =>
      refine (hperform.trans (.record _ _)).trans (of_same rfl rfl fun _ => ?_)
      exact (seen_send ..).trans (List.append_nil _)

end Hands

/-- Whatever an executor does, its avatars become what they are handed. -/
theorem Passage.hands {t t' : Turn α} (h : Passage t t') : Hands t t' := by
  induction h with
  | quiet hq => exact .of_same (congrArg Crew.own hq.crew) (congrArg Crew.rival hq.crew) hq.handed
  | record e _ => exact .record _ e
  | dispatch name args remote => exact .dispatch _ name args remote
  | trans _ _ ih ih' => exact ih.trans ih'

/-! ## The small steps -/

section Steps

variable (t : Turn α)

theorem passage_mapExec (f : Executor α → Executor α) (ho : (f t.exec).own = t.exec.own)
    (hr : (f t.exec).rival = t.exec.rival) (hl : (f t.exec).log = t.exec.log) :
    Passage t (t.mapExec f) :=
  .quiet ⟨congrArg₂ Crew.mk ho hr, hl, rfl, rfl, rfl, fun _ => rfl⟩

theorem passage_emit {e : Effect} (h : utteranceWatch.ofEffect e = []) (hl : e.line? = none)
    (hh : ∀ remote, (handWatch remote).ofEffect e = []) : Passage t (t.emit e) := by
  refine .quiet ⟨rfl, rfl, ?_, ?_, ?_, fun remote => ?_⟩
  · exact (t.seen_emit eventWatch e).trans (List.append_nil _)
  · rw [told, seen_emit, h, List.append_nil, told]
  · rw [lines_emit, hl]
    exact List.append_nil _
  · rw [seen_emit, hh, List.append_nil]

theorem passage_noteTick (tick : Tick) (kind : TickClass) : Passage t (t.noteTick tick kind) := by
  refine .quiet ⟨rfl, rfl, ?_, ?_, ?_, fun remote => ?_⟩
  · exact (t.seen_noteTick eventWatch tick kind).trans (List.append_nil _)
  · exact (t.seen_noteTick utteranceWatch tick kind).trans (List.append_nil _)
  · simp [lines, noteTick, Deed.line?, Deed.effect?]
  · exact (t.seen_noteTick (handWatch remote) tick kind).trans (List.append_nil _)

theorem passage_sendUnlockIf (sending : Bool) : Passage t (t.sendUnlockIf sending) := by
  cases sending
  · exact .refl t
  · exact (t.passage_emit rfl rfl fun _ => rfl).trans (.record .unlockSent rfl)

theorem passage_showRunning (path : Option Path) (value : Bool) :
    Passage t (t.showRunning path value) := by
  cases path with
  | none => exact .refl t
  | some path => exact .quiet ⟨rfl, rfl, rfl, rfl, rfl, fun _ => rfl⟩

theorem passage_shownTop (top : Option Nat) :
    Passage t (t.mapExec fun e => { e with shownTop := top }) :=
  t.passage_mapExec _ rfl rfl rfl

theorem passage_shownChild (child : Option Path) :
    Passage t (t.mapExec fun e => { e with shownChild := child }) :=
  t.passage_mapExec _ rfl rfl rfl

theorem passage_hideChild : Passage t t.hideChild :=
  (t.passage_showRunning _ _).trans (passage_shownChild _ _)

theorem passage_hideActive : Passage t t.hideActive :=
  (t.passage_hideChild.trans (passage_showRunning _ _ _)).trans (passage_shownTop _ _)

theorem passage_showTop (top : Nat) : Passage t (t.showTop top) := by
  unfold showTop
  split
  · exact .refl t
  · exact (t.passage_hideActive.trans (passage_showRunning _ _ _)).trans (passage_shownTop _ _)

theorem passage_showChild (child : Option Path) : Passage t (t.showChild child) := by
  unfold showChild
  split
  · exact .refl t
  · exact (t.passage_hideChild.trans (passage_showRunning _ _ _)).trans (passage_shownChild _ _)

theorem passage_showActive (path : Path) : Passage t (t.showActive path) :=
  (t.passage_showTop _).trans (passage_showChild _ _)

theorem passage_clearRunning : Passage t t.clearRunning :=
  .quiet ⟨rfl, rfl, rfl, rfl, rfl, fun _ => rfl⟩

theorem passage_setPolicy (p : SyncPolicy) : Passage t (t.setPolicy p) :=
  t.passage_mapExec _ rfl rfl rfl

end Steps

/-! ## The beginning and the end of a run -/

section Ends

variable (t : Turn α)

/-- A cleanup is a passage. -/
theorem passage_cleanup : Passage t t.cleanup := by
  have hclean := (t.passage_hideActive.trans
    (passage_mapExec _ Executor.cleaned rfl rfl rfl)).trans (passage_clearRunning _)
  exact (hclean.trans (passage_emit _ (e := .runShown false) rfl rfl fun _ => rfl)).trans
    (.record .cleanup rfl)

theorem passage_finish (outcome : Phase) : Passage t (t.finish outcome) := by
  have hstop := t.passage_hideActive.trans
    (passage_mapExec _ (·.stopped outcome) rfl rfl rfl)
  have hend : (endEvent outcome).isOfCommand = false := by
    unfold endEvent
    split <;> rfl
  have htell := ((hstop.trans (.record (endEvent outcome) hend)).trans
    (passage_emit _ (e := .sent .finish) rfl rfl fun _ => rfl)).trans (.record .finishSent rfl)
  unfold finish
  dsimp only
  split
  · exact htell.trans (passage_cleanup _)
  · have hdue := htell.trans
      (passage_mapExec _ (fun e => { e with cleanupDue := true }) rfl rfl rfl)
    exact hdue.trans (.record .cleanupDeferred rfl)

theorem passage_begin : Passage t.nextUpdate t.begin := by
  have hfree : Passage t.nextUpdate (if t.nextUpdate.exec.cleanupDue then t.nextUpdate.cleanup
      else t.nextUpdate) := by
    split
    · exact passage_cleanup _
    · exact .refl _
  have hstart := (hfree.trans (passage_mapExec _ Executor.started rfl rfl rfl)).trans
    (passage_clearRunning _)
  exact (hstart.trans (passage_emit _ (e := .runShown true) rfl rfl fun _ => rfl)).trans
    (.record (.runStarted ..) rfl)

end Ends

/-! ## Ticks -/

section Ticks

variable (t : Turn α) (tick : Tick)

/-- A tick at its gate is a passage. -/
theorem passage_passGate : Passage t (t.passGate tick).1 := by
  unfold passGate
  split
  · exact .refl t
  · generalize t.exec.policy.beforeTick (t.tickClass tick) t.exec.age = answer
    obtain ⟨policy, gate, sending⟩ := answer
    have hsend := (t.passage_setPolicy policy).trans (passage_sendUnlockIf _ sending)
    dsimp only
    split
    · exact (hsend.trans (passage_mapExec _
        (fun e => { e with pending := .peer, phase := .waitingForPeer }) rfl rfl rfl)).trans
          (.record (.waitingForPeer tick.top) rfl)
    · next delay =>
      split
      · exact hsend.trans
          (passage_mapExec _ (fun e => { e with pending := .pacing delay }) rfl rfl rfl)
      · exact hsend

theorem passage_carryOut (kind : TickClass) : Passage t (t.carryOut tick kind) := by
  have hshow := ((t.passage_showActive tick.path).trans (passage_noteTick _ tick kind)).trans
    (.record (.tick tick.top tick.name tick.wait) rfl)
  unfold carryOut
  dsimp only
  split
  · exact hshow
  · exact hshow.trans (.dispatch tick.name tick.args false)

theorem passage_makeTick : Passage t (t.makeTick tick) := by
  have hover : ∀ (t : Turn α) (kind : TickClass), Passage t (t.passOver kind) := fun t kind =>
    ((t.passage_setPolicy _).trans (passage_sendUnlockIf _ _)).trans
      (passage_mapExec _ (fun e => { e with age := some 0, cursor := e.cursor.consume })
        rfl rfl rfl)
  have hnothing : Passage t (t.mapExec fun e => { e with pending := .nothing }) :=
    t.passage_mapExec _ rfl rfl rfl
  exact ((hnothing.trans (passage_carryOut _ tick _)).trans (hover _ _)).trans
    (passage_emit _ (e := .stepShown tick.top) rfl rfl fun _ => rfl)

theorem passage_advanceBy : ∀ (n : Nat) (t : Turn α), Passage t (advanceBy n t)
  | 0, t => .refl t
  | n + 1, t => by
    unfold advanceBy
    split
    · exact t.passage_finish _
    · split
      · exact t.passage_finish _
      · next c tick _ =>
        have hmove : Passage t (t.moveTo c) := t.passage_mapExec _ rfl rfl rfl
        have hgate := hmove.trans (passage_passGate _ tick)
        split
        · next t' ht =>
          rw [ht] at hgate
          exact hgate
        · next t' ht =>
          rw [ht] at hgate
          exact (hgate.trans (passage_makeTick _ tick)).trans (passage_advanceBy n _)

end Ticks

/-! ## Operations -/

section Operations

variable (t : Turn α)

/-- The start of a run begins another update. -/
theorem passage_run : Passage (t.nextUpdateIf (!t.exec.isRunning)) t.run.1 := by
  unfold run
  cases t.exec.isRunning with
  | true => exact .record .runRejected rfl
  | false => exact t.passage_begin.trans (passage_advanceBy _ _)

/-- A run that is asked for begins an update of the log if it is started. -/
theorem passage_startTogether :
    Passage (t.nextUpdateIf (!t.exec.isRunning)) t.startTogether.1 := by
  have hrun := (t.send .run).passage_run
  unfold startTogether
  cases hr : t.exec.isRunning with
  | true => exact .record .runRejected rfl
  | false =>
    rw [show (t.send .run).exec.isRunning = false from hr] at hrun
    exact (t.nextUpdate.passage_emit (e := .sent .run) rfl rfl fun _ => rfl).trans hrun

/-- Time that passes is a passage. -/
theorem passage_passTime (dt : Float32) : Passage t (t.passTime dt).1 := by
  obtain ⟨policy, phase, pending, late, h, -⟩ := t.passTime_eq dt
  have hlate : Passage t (late.elim t fun held => t.record (.lockTimeout held)) := by
    cases late with
    | none => exact .refl t
    | some held => exact .record (.lockTimeout held) rfl
  rw [h]
  exact hlate.trans (passage_mapExec _ _ rfl rfl rfl)

/-- In a run, time that passes begins another update. -/
theorem passage_update (dt : Float32) :
    Passage (t.nextUpdateIf t.exec.isRunning) (t.update dt) := by
  unfold update
  cases t.exec.isRunning with
  | false => exact .refl t
  | true =>
    show Passage t.nextUpdate (if !t.nextUpdate.exec.mayRun then t.nextUpdate.finish .interrupted
      else _)
    split
    · exact passage_finish _ _
    · have hage := t.nextUpdate.passage_mapExec
        (fun e => { e with age := e.age.map (· + dt) }) rfl rfl rfl
      have htime := hage.trans (passage_passTime _ dt)
      split
      · next t' ht =>
        rw [ht] at htime
        exact htime.trans (passage_advanceBy _ _)
      · next t' ht =>
        rw [ht] at htime
        exact htime

theorem passage_interrupt : Passage t t.interrupt := by
  unfold interrupt
  split
  · exact t.passage_finish _
  · exact .refl t

theorem passage_afterRelease : Passage t t.afterRelease :=
  (Passage.record .unlockReceived rfl).trans (passage_setPolicy _ _)

theorem passage_afterPeerEnd : Passage t t.afterPeerEnd := by
  have hend := (Passage.record (t := t) .peerFinished rfl).trans
    (passage_setPolicy _ t.exec.policy.afterPeerEnd)
  unfold afterPeerEnd
  dsimp only
  split
  · exact hend.trans (passage_cleanup _)
  · exact hend

theorem passage_abandon : Passage t t.abandon :=
  ((t.passage_mapExec (fun e => { e with mayRun := false }) rfl rfl rfl).trans
    (.record .reset rfl)).trans (passage_cleanup _)

end Operations

end Turn

end Tandem
