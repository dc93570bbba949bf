import Tandem.Proofs.Pair.Duet
import Tandem.Proofs.Run.CutShort
import Tandem.Proofs.Run.LogLines
import Tandem.Proofs.Script.Editing

/-!
# Refused requests

A session refuses a run without a script and during a run, and its store refuses to edit a locked
command, or one that is not there. Without a run there is nothing to stop, and no run that time
could pass for. `Session.refuses` says when a request is refused, whatever phase the session is in
and whatever an earlier run has left behind.

Nothing is done of a request that is refused : the session, with its scripts and its executor, is
what it was, no avatar is called and nothing is sent. Only a run that is refused during another one
is recorded (`Session.LeavesAlone`). So what is refused next does not depend on what was refused
before, and a series of refused requests does no more than each of them.
-/

namespace Tandem

variable {α : Type}

/-! ## What is recorded -/

theorem Turn.effects_record (t : Turn α) (e : RunEvent) :
    (t.record e).effects.toList =
      t.effects.toList ++ (t.exec.log.record e).2.map Effect.logged := by
  have hlogged : ((t.exec.log.record e).2.map fun line => Deed.effect (.logged line)).filterMap
      Deed.effect? = (t.exec.log.record e).2.map Effect.logged := by
    rw [List.filterMap_map]
    exact congrFun List.filterMap_eq_map _
  rw [effects, effects, Array.toList_filterMap, Array.toList_filterMap, deeds_record,
    List.filterMap_append]
  exact congrArg (_ ++ ·) hlogged

/-! ## Executors and stores -/

namespace Turn

variable [Avatar α]

/-- A run begins, unless one is in progress : then the rejection is recorded. -/
theorem run_eq (t : Turn α) : t.run =
    if t.exec.isRunning then (t.record .runRejected, false) else (t.begin.advance, true) :=
  rfl

/-- The other device is asked only if a run is started then. -/
theorem startTogether_eq (t : Turn α) : t.startTogether =
    if t.exec.isRunning then (t.record .runRejected, false)
    else ((t.send .run).begin.advance, true) := by
  unfold startTogether
  split
  · rfl
  · next h => exact if_neg h

end Turn

namespace ScriptStore

/-- Editing can start at a place that exists and is not locked. -/
theorem answer_startEditing (t : ScriptStore) (path : Path) : (t.startEditing path).2 =
    (t.working.bind fun s => s.get? path).any fun c => !c.flags.locked := by
  unfold startEditing
  cases t.working with
  | none => rfl
  | some s =>
    dsimp only [Option.bind_some]
    split
    · next h => exact h.symm
    · next h => exact (Bool.eq_false_of_not_eq_true h).symm

/-- If it cannot start there, nothing changes. -/
theorem startEditing_of_refused {t : ScriptStore} {path : Path}
    (h : (t.startEditing path).2 = false) : (t.startEditing path).1 = t := by
  obtain heq | ⟨s, -, -, heq⟩ := t.startEditing_cases path
  · rw [heq]
  · rw [heq] at h
    cases h

/-- A command can be disabled at a place that exists. -/
theorem answer_setDisabled (t : ScriptStore) (path : Path) (value : Bool) :
    (t.setDisabled path value).2 = (t.working.bind fun s => s.get? path).isSome := by
  unfold setDisabled
  cases t.working with
  | none => rfl
  | some s =>
    simp only [Option.bind_some, Script.edit, Script.modify?]
    cases s.get? path <;> rfl

/-- A command that does not exist is not disabled, and nothing changes. -/
theorem setDisabled_of_refused {t : ScriptStore} {path : Path} {value : Bool}
    (h : (t.setDisabled path value).2 = false) : (t.setDisabled path value).1 = t := by
  obtain heq | ⟨s, s', -, -, heq⟩ := t.edit_cases (.setDisabled path value)
  · exact congrArg Prod.fst heq
  · exact absurd h (by rw [show t.setDisabled path value = _ from heq]; exact Bool.noConfusion)

end ScriptStore

namespace Session

/-! ## Requests -/

/-- What a session, or its store, may refuse. -/
inductive Request where
  | startTogether
  /-- The other device has started a run. -/
  | peerRun
  | update (dt : Float32)
  | interrupt
  | startEditing (path : Path)
  | setDisabled (path : Path) (value : Bool)

namespace Request

/-- A run is to be started. -/
def isRun : Request → Bool
  | startTogether | peerRun => true
  | _ => false

/-- Whoever makes the request is told whether it was granted. -/
def isAnswered : Request → Bool
  | startTogether | startEditing _ | setDisabled _ _ => true
  | _ => false

end Request

/-- The session with another store. -/
def withStore (s : Session α) (store : ScriptStore) : Session α :=
  { s with store := store }

/-- The session after the request, with the answer if there is one. -/
def ask [Avatar α] (s : Session α) : Request → SessionTurn α × Option Bool
  | .startTogether => s.startTogether.map id some
  | .peerRun => (s.receive .run, none)
  | .update dt => (s.update dt, none)
  | .interrupt => (s.interrupt, none)
  | .startEditing path => (s.store.startEditing path).map (fun t => (s.withStore t).still) some
  | .setDisabled path value =>
    (s.store.setDisabled path value).map (fun t => (s.withStore t).still) some

/-- The session after the requests. -/
def askAll [Avatar α] (s : Session α) : List Request → SessionTurn α
  | [] => s.still
  | r :: rs =>
    let t := (s.ask r).1
    let u := t.session.askAll rs
    ⟨u.session, t.effects ++ u.effects⟩

/-- The request is refused. -/
def refuses (s : Session α) : Request → Bool
  | .startTogether | .peerRun => s.isRunning || !s.store.isLoaded
  | .update _ | .interrupt => !s.isRunning
  | .startEditing path =>
    !(s.store.working.bind fun script => script.get? path).any fun c => !c.flags.locked
  | .setDisabled path _ => (s.store.working.bind fun script => script.get? path).isNone

/-- The requests that are recorded if they are refused. -/
def rejected (s : Session α) (rs : List Request) : Nat :=
  if s.isRunning && s.store.isLoaded then rs.countP Request.isRun else 0

/-! ## Being left alone -/

/-- That many refused runs are recorded. -/
def rejections (n : Nat) : List EventLog.Request :=
  List.replicate n (.record .runRejected)

/-- The session with that many more refused runs in its log. -/
def rejecting (s : Session α) (n : Nat) : Session α :=
  { s with exec := { s.exec with log := s.exec.log.serveAll (rejections n) } }

/-- Nothing was done but to record that many refused runs : all of the session but the log of its
executor is as it was, and nothing has come out but lines of the log. -/
structure LeavesAlone (s : Session α) (n : Nat) (t : SessionTurn α) : Prop where
  session : t.session = s.rejecting n
  effects : t.effects.toList = (s.exec.log.linesForAll (rejections n)).map Effect.logged

namespace LeavesAlone

variable {s : Session α} {t u : SessionTurn α} {n k : Nat}

theorem still (s : Session α) : s.LeavesAlone 0 s.still :=
  ⟨rfl, rfl⟩

/-- To record a rejection leaves everything else alone. -/
theorem record (s : Session α) : s.LeavesAlone 1 (s.act (·.record .runRejected)) where
  session := by
    show { (s.after s.lend).session with exec := (s.rejecting 1).exec } = _
    rw [s.after_lend]
    rfl
  effects :=
    (Turn.effects_record s.lend .runRejected).trans
      (congrArg (List.map _) (List.append_nil _).symm)

/-- No avatar is called, and nothing is sent or shown. -/
theorem logged (h : s.LeavesAlone n t) : ∀ e ∈ t.effects.toList, ∃ line, e = .logged line := by
  rw [h.effects]
  intro e he
  obtain ⟨line, -, rfl⟩ := List.mem_map.mp he
  exact ⟨line, rfl⟩

/-- Two stretches that leave the session alone leave it alone together. -/
theorem append (h : s.LeavesAlone n t) (hu : t.session.LeavesAlone k u) :
    s.LeavesAlone (n + k) ⟨u.session, t.effects ++ u.effects⟩ := by
  have hsplit : rejections (n + k) = rejections n ++ rejections k := List.replicate_add ..
  have hlog : t.session.exec.log = s.exec.log.serveAll (rejections n) := by rw [h.session]; rfl
  constructor
  · show u.session = _
    rw [hu.session, h.session, rejecting, rejecting, rejecting, hsplit, EventLog.serveAll,
      EventLog.serveAll, EventLog.serveAll, List.foldl_append]
  · rw [Array.toList_append, h.effects, hu.effects, hlog, hsplit, EventLog.linesForAll_append,
      List.map_append]

end LeavesAlone

/-- What is refused does not depend on what was recorded. -/
theorem refuses_rejecting (s : Session α) (n : Nat) (r : Request) :
    (s.rejecting n).refuses r = s.refuses r := by
  cases r <;> rfl

theorem rejected_cons (s : Session α) (r : Request) (rs : List Request) :
    s.rejected (r :: rs) = s.rejected [r] + s.rejected rs := by
  unfold rejected
  split
  · rw [List.countP_cons, Nat.add_comm, List.countP_singleton]
  · rfl

/-! ## Each request -/

/-- A run is refused during a run, which is recorded, or without a script. -/
theorem leavesAlone_run {s : Session α} {t : SessionTurn α} {f : Turn α → Turn α}
    (ht : t = if s.store.isLoaded then s.act f else s.still)
    (hf : s.isRunning = true → f s.lend = s.lend.record .runRejected)
    (h : (s.isRunning || !s.store.isLoaded) = true) :
    s.LeavesAlone (if s.isRunning && s.store.isLoaded then 1 else 0) t := by
  subst ht
  cases hs : s.store.isLoaded with
  | false =>
    rw [Bool.and_false]
    exact .still s
  | true =>
    have hrunning : s.isRunning = true := by simpa [hs] using h
    rw [hrunning]
    have hrecord := LeavesAlone.record s
    rwa [act, ← hf hrunning] at hrecord

variable [Avatar α]

/-- Whoever is told whether a request was granted is told so exactly if it is not refused. -/
theorem answer_ask (s : Session α) (r : Request) :
    (s.ask r).2 = if r.isAnswered then some (!s.refuses r) else none := by
  cases r with
  | startTogether =>
    refine congrArg some ?_
    show s.startTogether.2 = !(s.lend.exec.isRunning || !s.store.isLoaded)
    rw [Session.startTogether]
    cases s.store.isLoaded with
    | false => exact (congrArg (!·) (Bool.or_true _)).symm
    | true =>
      show s.lend.startTogether.2 = !(s.lend.exec.isRunning || false)
      rw [Turn.startTogether_eq, Bool.or_false]
      cases s.lend.exec.isRunning <;> rfl
  | startEditing path =>
    exact congrArg some ((s.store.answer_startEditing path).trans (Bool.not_not _).symm)
  | setDisabled path value =>
    exact congrArg some ((s.store.answer_setDisabled path value).trans (Option.not_isNone _).symm)
  | peerRun | update dt | interrupt => rfl

/-- A request that is refused leaves the session alone. -/
theorem leavesAlone_ask {s : Session α} {r : Request} (h : s.refuses r = true) :
    s.LeavesAlone (s.rejected [r]) (s.ask r).1 := by
  have hnone : r.isRun = false → s.rejected [r] = 0 := fun hr => by
    rw [rejected, List.countP_singleton, hr]
    exact ite_self 0
  cases r with
  | startTogether =>
    refine leavesAlone_run (f := fun t => t.startTogether.1) ?_ (fun hrunning => ?_) h
    · show s.startTogether.1 = _
      unfold startTogether
      split <;> rfl
    · exact congrArg Prod.fst ((s.lend.startTogether_eq).trans (if_pos hrunning))
  | peerRun =>
    exact leavesAlone_run (f := fun t => t.run.1) rfl
      (fun hrunning => congrArg Prod.fst ((s.lend.run_eq).trans (if_pos hrunning))) h
  | update dt =>
    rw [hnone rfl]
    show s.LeavesAlone 0 (s.update dt)
    have hrunning : s.lend.exec.isRunning = false := (Bool.not_eq_true' _).mp h
    rw [← s.after_updating, updating, Turn.update_of_idle hrunning, ite_self, after_lend]
    exact .still s
  | interrupt =>
    rw [hnone rfl]
    show s.LeavesAlone 0 (s.after s.lend.interrupt)
    have hrunning : s.lend.exec.isRunning = false := (Bool.not_eq_true' _).mp h
    rw [Turn.interrupt, hrunning, if_neg Bool.false_ne_true, after_lend]
    exact .still s
  | startEditing path =>
    have hfalse : (s.store.startEditing path).2 = false := by
      rw [ScriptStore.answer_startEditing]
      exact (Bool.not_eq_true' _).mp h
    rw [hnone rfl]
    show s.LeavesAlone 0 (s.withStore (s.store.startEditing path).1).still
    rw [ScriptStore.startEditing_of_refused hfalse]
    exact .still s
  | setDisabled path value =>
    have hfalse : (s.store.setDisabled path value).2 = false := by
      rw [ScriptStore.answer_setDisabled]
      exact Option.isSome_eq_false_iff.mpr h
    rw [hnone rfl]
    show s.LeavesAlone 0 (s.withStore (s.store.setDisabled path value).1).still
    rw [ScriptStore.setDisabled_of_refused hfalse]
    exact .still s

/-- A series of refused requests leaves the session alone. -/
theorem leavesAlone_askAll {rs : List Request} {s : Session α}
    (h : ∀ r ∈ rs, s.refuses r = true) : s.LeavesAlone (s.rejected rs) (s.askAll rs) := by
  induction rs generalizing s with
  | nil =>
    have hnone : s.rejected [] = 0 := ite_self 0
    rw [hnone]
    exact .still s
  | cons r rs ih =>
    obtain ⟨hr, hrs⟩ := List.forall_mem_cons.mp h
    have hone := leavesAlone_ask hr
    have hrest : (s.ask r).1.session.LeavesAlone (s.rejected rs)
        ((s.ask r).1.session.askAll rs) := by
      have hrefuses : ∀ q ∈ rs, (s.ask r).1.session.refuses q = true := fun q hq => by
        rw [hone.session, refuses_rejecting]
        exact hrs q hq
      have hall := ih hrefuses
      rwa [show (s.ask r).1.session.rejected rs = s.rejected rs by rw [hone.session]; rfl] at hall
    rw [rejected_cons]
    exact hone.append hrest

/-- A request of a session is refused exactly if that is the answer to it, where there is one. In
whatever state the session is, a request that is refused leaves it alone, but for one refused run
that it may record, and a series of them leaves it alone as well. An executor refuses a run exactly
during a run, and does nothing then but record it, whoever asks for it. -/
theorem refused_requests :
    (∀ (s : Session α) (r : Request),
      (s.ask r).2 = if r.isAnswered then some (!s.refuses r) else none) ∧
    (∀ (s : Session α) (r : Request), s.refuses r = true →
      s.LeavesAlone (s.rejected [r]) (s.ask r).1 ∧ s.rejected [r] ≤ 1) ∧
    (∀ (s : Session α) (rs : List Request), (∀ r ∈ rs, s.refuses r = true) →
      s.LeavesAlone (s.rejected rs) (s.askAll rs)) ∧
    ∀ t : Turn α, t.run.2 = !t.exec.isRunning ∧ t.startTogether.2 = !t.exec.isRunning ∧
      (t.exec.isRunning = true → t.run.1 = t.record .runRejected ∧
        t.startTogether.1 = t.record .runRejected) := by
  refine ⟨answer_ask, fun s r hr => ⟨leavesAlone_ask hr, ?_⟩, fun s rs => leavesAlone_askAll,
    fun t => ?_⟩
  · rw [rejected]
    split
    · exact List.countP_le_length
    · exact Nat.zero_le 1
  · rw [Turn.run_eq, Turn.startTogether_eq]
    cases t.exec.isRunning with
    | false => exact ⟨rfl, rfl, fun h => absurd h Bool.false_ne_true⟩
    | true => exact ⟨rfl, rfl, fun _ => ⟨rfl, rfl⟩⟩

/-- A master that waits for the slave to make the first move. Its second command is locked. -/
def held : Session GridAvatar :=
  let script := ⟨[.ofName "MOVE" ["EAST"], (Command.ofName "MOVE" ["WEST"]).setLocked true]⟩
  ((Duet.onGrid .cmdSwitching fun _ => script).session .master).startTogether.1.session

/-- It was stopped, and what its run has left behind stays until the slave has finished. -/
def halted : Session GridAvatar :=
  held.interrupt.session

/-- Four requests are refused while the master waits, of which the two for a run are recorded. Once
it was stopped, to stop it again is refused as well. -/
theorem refused_while_held :
    (held.exec.phase = .waitingForPeer ∧ (held.ask (.startEditing [1])).2 = some false ∧
      held.LeavesAlone 2 (held.askAll
        [.startTogether, .startEditing [1], .peerRun, .setDisabled [2] true])) ∧
    halted.exec.cleanupDue = true ∧ halted.exec.phase = .interrupted ∧
      halted.LeavesAlone 0 (halted.ask .interrupt).1 := by
  obtain ⟨hanswer, hone, hall, -⟩ := refused_requests (α := GridAvatar)
  have hheld := hall held [.startTogether, .startEditing [1], .peerRun, .setDisabled [2] true]
    (by decide +kernel)
  have hcount : held.rejected
      [.startTogether, .startEditing [1], .peerRun, .setDisabled [2] true] = 2 := by
    decide +kernel
  have hhalted := (hone halted .interrupt (by decide +kernel)).1
  have hnone : halted.rejected [.interrupt] = 0 := by decide +kernel
  refine ⟨⟨by decide +kernel, ?_, hcount ▸ hheld⟩, by decide +kernel, by decide +kernel,
    hnone ▸ hhalted⟩
  have hlocked : held.refuses (.startEditing [1]) = true := by decide +kernel
  rw [hanswer, hlocked]
  rfl

end Session

end Tandem
