import Tandem.Proofs.Run.Step
import Tandem.Proofs.Sync.Consistent
import Mathlib.Data.List.DropRight

/-!
# Releases and ticks

How often a device releases the other one in a run, set against the ticks of the run that take part
in the synchronisation, depends on the mode alone : never, once for each such tick, or at most once
for each. Once the other device has finished, none of its ticks is held back any more.

The counts are kept by every step (`Turn.Tallied.step`) : where devices take turns, a release
that is still owed is one that has not been sent for a tick that was made. So they hold of the last
run of every career (`Career.keeps_tally`).
-/

namespace Tandem

/-- What a run has to do with the other device's run. -/
inductive SyncDeed where
  /-- The run starts. -/
  | start
  /-- A tick that takes part in the synchronisation is made. -/
  | tick
  /-- The other device is released. -/
  | unlock
  /-- A tick is held back until the other device releases this one. -/
  | hold
  /-- The other device has finished. -/
  | peerEnd
deriving DecidableEq

/-- Sees what has to do with the other device's run. -/
def syncWatch : Watch SyncDeed where
  see
    | .event (.runStarted ..) => some .start
    | .tick _ kind _ => if kind.lock then some .tick else none
    | .effect (.sent .unlock) => some .unlock
    | .event (.waitingForPeer _) => some .hold
    | .event .peerFinished => some .peerEnd
    | _ => none
  see_logged _ := rfl

theorem alike_syncWatch : syncWatch.TakesCommandsAlike :=
  ⟨fun _ _ _ _ => rfl, fun _ _ => rfl, fun _ _ => rfl, fun _ _ => rfl⟩

namespace SyncDeed

/-! ## What is seen of a tick -/

/-- A tick is seen if it takes part, and so is the release that comes with it. -/
def ofTick (lock releases : Bool) : List SyncDeed :=
  (if lock then [tick] else []) ++ syncWatch.ofRelease releases

/-- A tick that is held back is seen, and so is the release that was owed. -/
def ofHold (owes : Bool) : List SyncDeed :=
  syncWatch.ofRelease owes ++ [hold]

/-- The watch sees a tick like this. -/
theorem ofTick_syncWatch (t : Tick) (kind : TickClass) (age : Option Float32) (releases : Bool) :
    syncWatch.ofTick t kind age ++
        (syncWatch.ofRelease releases ++ syncWatch.ofEffect (.stepShown t.top)) =
      ofTick kind.lock releases := by
  obtain ⟨lock, wait⟩ := kind
  rw [Watch.ofTick]
  cases lock <;> cases t.wait <;> cases releases <;> rfl

/-- A tick that is made starts no run, is not held back, and tells nothing of the other device. -/
theorem mem_ofTick {lock releases : Bool} {d : SyncDeed} (h : d ∈ ofTick lock releases) :
    d = tick ∨ d = unlock := by
  revert h
  cases lock <;> cases releases <;> cases d <;> decide

/-- With a tick one release is sent at most. -/
theorem count_unlock_ofTick (lock releases : Bool) :
    (ofTick lock releases).count unlock = if releases then 1 else 0 := by
  cases lock <;> cases releases <;> rfl

/-- A tick is counted once if it takes part. -/
theorem count_tick_ofTick (lock releases : Bool) :
    (ofTick lock releases).count tick = if lock then 1 else 0 := by
  cases lock <;> cases releases <;> rfl

/-- A tick that is held back starts no run, and tells nothing of the end of the other device. -/
theorem mem_ofHold {owes : Bool} {d : SyncDeed} (h : d ∈ ofHold owes) : d = unlock ∨ d = hold := by
  revert h
  cases owes <;> cases d <;> decide

theorem count_unlock_ofHold (owes : Bool) :
    (ofHold owes).count unlock = if owes then 1 else 0 := by
  cases owes <;> rfl

theorem count_tick_ofHold (owes : Bool) : (ofHold owes).count tick = 0 := by
  cases owes <;> rfl

/-! ## The last run -/

/-- The deeds since the last start of a run. -/
def lastRun (past : List SyncDeed) : List SyncDeed :=
  past.rtakeWhile (· ≠ start)

variable {past new : List SyncDeed}

/-- A run that starts is the last one, and has done nothing. -/
theorem lastRun_start (past : List SyncDeed) : lastRun (past ++ [start]) = [] :=
  List.rtakeWhile_concat_neg _ _ _ (by simp)

/-- What starts no run belongs to the last one. -/
theorem lastRun_append (h : start ∉ new) : lastRun (past ++ new) = lastRun past ++ new := by
  induction new using List.reverseRecOn with
  | nil => rw [List.append_nil, List.append_nil]
  | append_singleton new d ih =>
    have hnew : start ∉ new := fun hmem => h (List.mem_append_left _ hmem)
    have hd : d ≠ start := fun heq => h (List.mem_append_right _ (heq ▸ List.mem_singleton_self d))
    have hlast : lastRun (past ++ new ++ [d]) = lastRun (past ++ new) ++ [d] :=
      List.rtakeWhile_concat_pos _ _ _ (decide_eq_true hd)
    rw [← List.append_assoc, hlast, ih hnew, List.append_assoc]

end SyncDeed

/-- A run of a device in that mode holds back no tick once the other device has finished, and
releases it as often as the mode wants : never, once for each tick made before it has finished, or
at most once for each tick. -/
structure Tally (mode : SyncMode) (run : List SyncDeed) : Prop where
  quiet : .hold ∉ run.dropWhile (· ≠ .peerEnd)
  async : mode = .async → run.count .unlock = 0
  parallel : mode = .stepSwitching →
    run.count .unlock = (run.takeWhile (· ≠ .peerEnd)).count .tick
  turns : mode = .cmdSwitching → run.count .unlock ≤ run.count .tick

namespace Tally

variable {mode : SyncMode} {run new : List SyncDeed}

/-- As long as the end of the other device has not been seen, all deeds are in front of it. -/
theorem takeWhile_of_not_mem (h : .peerEnd ∉ run) (new : List SyncDeed) :
    (run ++ new).takeWhile (· ≠ .peerEnd) = run ++ new.takeWhile (· ≠ SyncDeed.peerEnd) :=
  List.takeWhile_append_of_pos fun _ hd => decide_eq_true fun heq => h (heq ▸ hd)

theorem dropWhile_of_not_mem (h : .peerEnd ∉ run) (new : List SyncDeed) :
    (run ++ new).dropWhile (· ≠ .peerEnd) = new.dropWhile (· ≠ SyncDeed.peerEnd) :=
  List.dropWhile_append_of_pos fun _ hd => decide_eq_true fun heq => h (heq ▸ hd)

theorem takeWhile_self (h : .peerEnd ∉ run) : run.takeWhile (· ≠ SyncDeed.peerEnd) = run := by
  simpa using takeWhile_of_not_mem h []

/-- Once it has been seen, none is added in front of it. -/
theorem takeWhile_of_mem (h : .peerEnd ∈ run) :
    (run ++ new).takeWhile (· ≠ .peerEnd) = run.takeWhile (· ≠ SyncDeed.peerEnd) := by
  obtain ⟨before, after, rfl, hbefore⟩ := List.eq_append_cons_of_mem h
  rw [List.append_assoc, takeWhile_of_not_mem hbefore, takeWhile_of_not_mem hbefore]
  simp

theorem dropWhile_of_mem (h : .peerEnd ∈ run) :
    (run ++ new).dropWhile (· ≠ .peerEnd) = run.dropWhile (· ≠ SyncDeed.peerEnd) ++ new := by
  obtain ⟨before, after, rfl, hbefore⟩ := List.eq_append_cons_of_mem h
  rw [List.append_assoc, dropWhile_of_not_mem hbefore, dropWhile_of_not_mem hbefore]
  simp

/-- The tally of a run that has done nothing is right. -/
theorem nil (mode : SyncMode) : Tally mode [] :=
  ⟨List.not_mem_nil, fun _ => rfl, fun _ => rfl, fun _ => Nat.le_refl 0⟩

/-- The end of the other device does not spoil the tally. -/
theorem peerEnd (h : Tally mode run) : Tally mode (run ++ [.peerEnd]) := by
  refine ⟨?_, fun hm => ?_, fun hm => ?_, fun hm => ?_⟩
  · by_cases hmem : .peerEnd ∈ run
    · rw [dropWhile_of_mem hmem]
      simpa using h.quiet
    · rw [dropWhile_of_not_mem hmem]
      simp
  · simpa using h.async hm
  · have hrun := h.parallel hm
    by_cases hmem : .peerEnd ∈ run
    · rw [takeWhile_of_mem hmem]
      simpa using hrun
    · rw [takeWhile_self hmem] at hrun
      rw [takeWhile_of_not_mem hmem]
      simpa using hrun
  · simpa using h.turns hm

/-- A run goes on within the tally if what it does next is within it. -/
theorem append (h : Tally mode run) (hnew : .peerEnd ∉ new) (quiet : .peerEnd ∈ run → .hold ∉ new)
    (async : mode = .async → new.count .unlock = 0)
    (parallel : mode = .stepSwitching →
      new.count .unlock = if .peerEnd ∈ run then 0 else new.count .tick)
    (turns : mode = .cmdSwitching → (run ++ new).count .unlock ≤ (run ++ new).count .tick) :
    Tally mode (run ++ new) := by
  refine ⟨?_, fun hm => ?_, fun hm => ?_, turns⟩
  · by_cases hmem : .peerEnd ∈ run
    · rw [dropWhile_of_mem hmem, List.mem_append, not_or]
      exact ⟨h.quiet, quiet hmem⟩
    · have hall : .peerEnd ∉ run ++ new := fun h => (List.mem_append.mp h).elim hmem hnew
      have hdrop := dropWhile_of_not_mem hall []
      rw [List.append_nil] at hdrop
      rw [hdrop]
      exact List.not_mem_nil
  · rw [List.count_append, h.async hm, async hm]
  · have hrun := h.parallel hm
    rw [List.count_append, parallel hm]
    by_cases hmem : .peerEnd ∈ run
    · rw [if_pos hmem, takeWhile_of_mem hmem, hrun, Nat.add_zero]
    · rw [takeWhile_self hmem] at hrun
      rw [if_neg hmem, takeWhile_of_not_mem hmem, takeWhile_self hnew, List.count_append, hrun]

end Tally

namespace Executor

open Turn

variable {α : Type}

/-- After those deeds in its last run, the policy of the executor is consistent and the tally is
right. While the run is in progress, the policy knows whether the other device has finished, and a
release that is owed is one that was not sent for a tick that was made. -/
structure Tallied (mode : SyncMode) (run : List SyncDeed) (e : Executor α) : Prop where
  consistent : e.policy.Consistent
  policyMode : e.policy.mode = mode
  tally : Tally mode run
  heard : e.isRunning = true → (e.policy.peerFinished = true ↔ .peerEnd ∈ run)
  owed : e.isRunning = true → mode = .cmdSwitching →
    run.count .unlock + (if e.policy.armed then 1 else 0) ≤ run.count .tick

namespace Tallied

variable {mode : SyncMode} {run : List SyncDeed} {e e' : Executor α}

/-- What leaves the policy and the run as they are keeps the tally. -/
theorem of_same (h : Tallied mode run e) (hp : e'.policy = e.policy)
    (hr : e'.isRunning = true → e.isRunning = true) : Tallied mode run e' := by
  refine ⟨?_, ?_, h.tally, fun hr' => ?_, fun hr' => ?_⟩
  all_goals rw [hp]
  · exact h.consistent
  · exact h.policyMode
  · exact h.heard (hr hr')
  · exact h.owed (hr hr')

/-- What ends the run owes nothing. -/
theorem of_idle (h : Tallied mode run e) (hc : e'.policy.Consistent)
    (hm : e'.policy.make = e.policy.make) (hr : e'.isRunning = false) : Tallied mode run e' := by
  refine ⟨hc, (congrArg Prod.fst hm).trans h.policyMode, h.tally, fun hr' => ?_, fun hr' => ?_⟩
  · cases hr.symm.trans hr'
  · cases hr.symm.trans hr'

/-- What leaves the debt to the other device as it is, and what is known of it, keeps the tally. -/
theorem of_lock (h : Tallied mode run e) (hc : e'.policy.Consistent)
    (hm : e'.policy.make = e.policy.make) (hheard : e'.policy.peerFinished = e.policy.peerFinished)
    (harmed : e'.policy.armed = e.policy.armed) (hr : e'.isRunning = e.isRunning) :
    Tallied mode run e' := by
  refine ⟨hc, (congrArg Prod.fst hm).trans h.policyMode, h.tally, fun hr' => ?_, fun hr' => ?_⟩
  · rw [hheard]
    exact h.heard (hr.symm.trans hr')
  · rw [harmed]
    exact h.owed (hr.symm.trans hr')

/-- A tick is held back only if the other device has not finished, and what is owed is paid then. -/
theorem hold (h : Tallied mode run e) (hr : e.isRunning = true) (hshut : ¬e.policy.isOpen)
    (hp : e'.policy = e.policy.handedOver) :
    Tallied mode (run ++ SyncDeed.ofHold e.policy.owesRelease) e' := by
  have hunheard : .peerEnd ∉ run := fun hmem =>
    hshut (h.consistent.isOpen ((h.heard hr).mpr hmem))
  have hpeerEnd : .peerEnd ∉ SyncDeed.ofHold e.policy.owesRelease := fun hmem =>
    (SyncDeed.mem_ofHold hmem).elim nofun nofun
  have howes : e.policy.owesRelease = (mode = .cmdSwitching && e.policy.armed) := by
    rw [← h.policyMode]
    rfl
  have hunlock := SyncDeed.count_unlock_ofHold e.policy.owesRelease
  have htick := SyncDeed.count_tick_ofHold e.policy.owesRelease
  have hturns : mode = .cmdSwitching →
      (run ++ SyncDeed.ofHold e.policy.owesRelease).count .unlock ≤
        (run ++ SyncDeed.ofHold e.policy.owesRelease).count .tick := by
    intro hm
    have howed := h.owed hr hm
    rw [List.count_append, List.count_append, hunlock, htick, howes]
    simpa [hm] using howed
  refine ⟨hp ▸ h.consistent.handedOver, ?_, ?_, fun _ => ?_, fun _ hm => ?_⟩
  · rw [hp]
    exact (congrArg Prod.fst e.policy.make_handedOver).trans h.policyMode
  · refine h.tally.append hpeerEnd (fun hmem => absurd hmem hunheard) (fun hm => ?_) (fun hm => ?_)
      hturns
    · rw [hunlock, howes, hm]
      rfl
    · rw [hunlock, htick, howes, hm, if_neg hunheard]
      rfl
  · have hheard : e'.policy.peerFinished = e.policy.peerFinished := by
      rw [hp, SyncPolicy.handedOver]
      split <;> rfl
    rw [hheard, h.heard hr, List.mem_append, or_iff_left hpeerEnd]
  · have hpaid : e'.policy.armed = false := by
      rw [hp, SyncPolicy.handedOver, if_pos (h.policyMode.trans hm)]
    rw [hpaid]
    exact hturns hm

/-- Only where devices go in parallel, and while the other one goes on, a tick that takes part
releases it. -/
theorem releasesAfter_eq (h : Tallied mode run e) (kind : TickClass) :
    e.policy.releasesAfter kind =
      (kind.lock && !e.policy.peerFinished && mode = .stepSwitching) := by
  rw [← h.policyMode]
  rfl

/-- Where devices take turns, a tick that takes part adds one to what is sent or owed. -/
theorem owed_tick (h : Tallied mode run e) (hr : e.isRunning = true) (kind : TickClass)
    (hp : e'.policy = (e.policy.afterTick kind).1) (hm : mode = .cmdSwitching) :
    (run ++ SyncDeed.ofTick kind.lock (e.policy.releasesAfter kind)).count .unlock +
        (if e'.policy.armed then 1 else 0) ≤
      (run ++ SyncDeed.ofTick kind.lock (e.policy.releasesAfter kind)).count .tick := by
  have howed := h.owed hr hm
  have harmed : e'.policy.armed = (e.policy.armsAfter kind || e.policy.armed) := by
    rw [hp, SyncPolicy.afterTick_eq]
  have hlater : e.policy.releasesAfter kind = false := by
    rw [h.releasesAfter_eq, hm]
    exact Bool.and_false _
  rw [List.count_append, List.count_append, SyncDeed.count_unlock_ofTick,
    SyncDeed.count_tick_ofTick, hlater, harmed]
  cases hk : kind.lock with
  | false =>
    have harms : e.policy.armsAfter kind = false := by simp [SyncPolicy.armsAfter, hk]
    simpa [harms] using howed
  | true =>
    simp only [Bool.false_eq_true, if_false, if_true]
    split <;> omega

/-- A tick that takes part is counted, and the release that is sent with it. -/
theorem tally_tick (h : Tallied mode run e) (hr : e.isRunning = true) (kind : TickClass)
    (hturns : mode = .cmdSwitching →
      (run ++ SyncDeed.ofTick kind.lock (e.policy.releasesAfter kind)).count .unlock ≤
        (run ++ SyncDeed.ofTick kind.lock (e.policy.releasesAfter kind)).count .tick) :
    Tally mode (run ++ SyncDeed.ofTick kind.lock (e.policy.releasesAfter kind)) := by
  refine h.tally.append (fun hmem => (SyncDeed.mem_ofTick hmem).elim nofun nofun)
    (fun _ hmem => (SyncDeed.mem_ofTick hmem).elim nofun nofun) (fun hm => ?_) (fun hm => ?_) hturns
  · rw [SyncDeed.count_unlock_ofTick, h.releasesAfter_eq, hm, Bool.and_comm]
    rfl
  · rw [SyncDeed.count_unlock_ofTick, SyncDeed.count_tick_ofTick, h.releasesAfter_eq, hm]
    have hheard := h.heard hr
    by_cases hmem : .peerEnd ∈ run
    · simp [hmem, hheard.mpr hmem]
    · have hnot : e.policy.peerFinished = false :=
        Bool.eq_false_iff.mpr fun hp => hmem (hheard.mp hp)
      simp [hmem, hnot]

/-- A tick that takes part is counted, and the release for it is sent at once or owed. -/
theorem tick (h : Tallied mode run e) (hr : e.isRunning = true) (kind : TickClass)
    (hp : e'.policy = (e.policy.afterTick kind).1) :
    Tallied mode (run ++ SyncDeed.ofTick kind.lock (e.policy.releasesAfter kind)) e' where
  consistent := hp ▸ h.consistent.afterTick kind
  policyMode := by
    rw [hp]
    exact (congrArg Prod.fst (e.policy.make_afterTick kind)).trans h.policyMode
  tally := h.tally_tick hr kind fun hm => (Nat.le_add_right _ _).trans (h.owed_tick hr kind hp hm)
  heard _ := by
    have hheard : e'.policy.peerFinished = e.policy.peerFinished := by
      rw [hp, SyncPolicy.afterTick_eq]
    have hpeerEnd : .peerEnd ∉ SyncDeed.ofTick kind.lock (e.policy.releasesAfter kind) :=
      fun hmem => (SyncDeed.mem_ofTick hmem).elim nofun nofun
    rw [hheard, h.heard hr, List.mem_append, or_iff_left hpeerEnd]
  owed _ := h.owed_tick hr kind hp

/-- From now on the other device is known to have finished. -/
theorem peerEnd (h : Tallied mode run e) (hp : e'.policy = e.policy.afterPeerEnd)
    (hr : e'.isRunning = e.isRunning) : Tallied mode (run ++ [.peerEnd]) e' := by
  refine ⟨hp ▸ h.consistent.afterPeerEnd, ?_, h.tally.peerEnd, fun _ => ?_, fun hr' hm => ?_⟩
  · rw [hp]
    exact h.policyMode
  · rw [hp]
    simp [SyncPolicy.afterPeerEnd]
  · have howed := h.owed (hr.symm.trans hr') hm
    have harmed : e'.policy.armed = e.policy.armed := by
      rw [hp]
      rfl
    rw [harmed]
    simpa using howed

/-! ## The tally through a run -/

variable {t : Turn α}

/-- Cleaning up leaves a new policy, which owes nothing. -/
theorem cleanup (h : Tallied mode run t.exec) : Tallied mode run t.cleanup.exec := by
  have hp : t.cleanup.exec.policy = t.exec.policy.reset := congrArg Core.policy t.core_cleanup
  refine h.of_idle ?_ ?_ (congrArg Core.isRunning t.core_cleanup)
  · rw [hp]
    exact SyncPolicy.consistent_initial _ _ _
  · rw [hp]
    rfl

/-- When a run is over, nothing of it is owed. -/
theorem finish (h : Tallied mode run t.exec) {outcome : Phase}
    (ho : outcome = .completed ∨ outcome = .interrupted) :
    Tallied mode run (t.finish outcome).exec := by
  have hcore := t.core_finish outcome
  have hp : (t.finish outcome).exec.policy = (t.exec.core.ended outcome).policy :=
    congrArg Core.policy hcore
  refine h.of_idle ?_ ?_ ((congrArg Core.isRunning hcore).trans (Core.rests_ended _ ho).isRunning)
  all_goals
    rw [hp, Core.ended]
    dsimp only
    split
  · exact SyncPolicy.consistent_initial _ _ _
  · exact h.consistent.stop
  · rfl
  · rfl

/-- A run begins with an empty tally. -/
theorem begin (h : Tallied mode run t.exec) : Tallied mode [] t.begin.exec := by
  have hp : t.begin.exec.policy = t.exec.policy.start := congrArg Core.policy t.core_begin
  refine ⟨hp ▸ .start _, hp ▸ h.policyMode, .nil mode, fun _ => ?_, fun _ _ => ?_⟩
  all_goals
    rw [hp]
    simp [SyncPolicy.start, SyncPolicy.reset, SyncPolicy.initial]

/-- While time passes nothing is sent, and nothing new is known of the other device. -/
theorem passTime (h : Tallied mode run t.exec) (hr : t.exec.isRunning = true) (dt : Float32) :
    Tallied mode run (t.passTime dt).1.exec := by
  have hc := h.consistent.waitFor dt
  unfold Turn.passTime
  split
  · dsimp only
    split <;> exact h.of_same rfl fun _ => hr
  · obtain ⟨-, hw⟩ | ⟨-, held, hw⟩ | ⟨-, held, hw⟩ := t.exec.policy.waitFor_cases dt
    all_goals
      rw [hw] at hc ⊢
    · exact h.of_lock hc rfl rfl rfl hr.symm
    · exact h.of_lock hc rfl rfl rfl hr.symm
    · exact h.of_lock hc rfl rfl rfl rfl
  · exact h
  · exact h

end Tallied

end Executor

/-! ## Every step keeps the tally -/

namespace Turn

variable {α : Type}

/-- The deeds of the last run, and the executor behind them, are tallied. -/
def Tallied (mode : SyncMode) (past : List SyncDeed) (t : Turn α) : Prop :=
  Executor.Tallied mode (SyncDeed.lastRun (past ++ t.seen syncWatch)) t.exec

namespace Tallied

variable {mode : SyncMode} {past : List SyncDeed} {t t' : Turn α}

/-- What is seen of a step that starts no run is added to the last run. -/
theorem of_seen {new : List SyncDeed} (hseen : t'.seen syncWatch = t.seen syncWatch ++ new)
    (hno : .start ∉ new)
    (h : Executor.Tallied mode (SyncDeed.lastRun (past ++ t.seen syncWatch) ++ new) t'.exec) :
    Tallied mode past t' := by
  rw [Tallied, hseen, ← List.append_assoc, SyncDeed.lastRun_append hno]
  exact h

/-- Of most steps nothing is seen. -/
theorem of_unseen (hseen : t'.seen syncWatch = t.seen syncWatch ++ [])
    (h : Executor.Tallied mode (SyncDeed.lastRun (past ++ t.seen syncWatch)) t'.exec) :
    Tallied mode past t' := by
  refine of_seen hseen List.not_mem_nil ?_
  rwa [List.append_nil]

/-- When a run begins, it is the last one. -/
theorem begin (h : Tallied mode past t) : Tallied mode past t.begin := by
  have hseen : t.begin.seen syncWatch = t.seen syncWatch ++ [.start] := by
    rw [t.seen_begin]
    cases t.exec.cleanupDue <;> rfl
  rw [Tallied, hseen, ← List.append_assoc, SyncDeed.lastRun_start]
  exact Executor.Tallied.begin h

/-- When a run is over, this is told to the other device, but no tick and no release is seen. -/
theorem finish (h : Tallied mode past t) {outcome : Phase}
    (ho : outcome = .completed ∨ outcome = .interrupted) :
    Tallied mode past (t.finish outcome) := by
  refine of_unseen ((t.seen_finish syncWatch outcome).trans ?_) (Executor.Tallied.finish h ho)
  obtain rfl | rfl := ho <;> cases t.exec.policy.peerFinished <;> rfl

/-- The end of the other device is seen, and a run that is over is cleaned up then. -/
theorem afterPeerEnd (h : Tallied mode past t) : Tallied mode past t.afterPeerEnd := by
  have hheard : Executor.Tallied mode (SyncDeed.lastRun (past ++ t.seen syncWatch) ++ [.peerEnd])
      ((t.record .peerFinished).setPolicy t.exec.policy.afterPeerEnd).exec :=
    h.peerEnd rfl rfl
  have hseen : t.afterPeerEnd.seen syncWatch = t.seen syncWatch ++ [.peerEnd] := by
    rw [t.seen_afterPeerEnd]
    cases t.side.due <;> rfl
  refine of_seen hseen (by decide) ?_
  unfold Turn.afterPeerEnd
  dsimp only
  split
  · exact hheard.cleanup
  · exact hheard

/-- A run that is given up leaves nothing to be tallied. -/
theorem abandon (h : Tallied mode past t) : Tallied mode past t.abandon := by
  have hreset : Executor.Tallied mode (SyncDeed.lastRun (past ++ t.seen syncWatch))
      ((t.mapExec fun e => { e with mayRun := false }).record .reset).exec := h.of_same rfl id
  refine of_unseen ?_ hreset.cleanup
  rw [Turn.abandon, seen_cleanup, seen_record]
  exact List.append_assoc _ _ _

variable [Avatar α]

/-- At its gate a tick is let through, waits, or is held back by a policy that is shut. -/
theorem passGate (h : Tallied mode past t) (hr : t.exec.isRunning = true) (tick : Tick) :
    Tallied mode past (t.passGate tick).1 := by
  obtain ⟨hg, -⟩ | ⟨delay, hg, -⟩ | ⟨t', hg, hshut, hcore, -, hseen⟩ := t.passGate_cases tick
  · rwa [hg]
  · rw [hg]
    exact h.of_same rfl fun _ => hr
  · rw [hg]
    refine of_seen (hseen syncWatch) (fun hmem => (SyncDeed.mem_ofHold hmem).elim nofun nofun) ?_
    exact h.hold hr hshut (congrArg Core.policy hcore)

/-- A tick that is made is seen if it takes part. -/
theorem makeTick (h : Tallied mode past t) (hr : t.exec.isRunning = true) (tick : Tick) :
    Tallied mode past (t.makeTick tick) := by
  have hseen : (t.makeTick tick).seen syncWatch = t.seen syncWatch ++
      SyncDeed.ofTick (t.tickClass tick).lock (t.exec.policy.releasesAfter (t.tickClass tick)) := by
    rw [t.seen_makeTick syncWatch tick alike_syncWatch]
    exact congrArg (t.seen syncWatch ++ ·) (SyncDeed.ofTick_syncWatch _ _ _ _)
  refine of_seen hseen (fun hmem => (SyncDeed.mem_ofTick hmem).elim nofun nofun) ?_
  exact h.tick hr _ (congrArg Core.policy (t.core_makeTick tick))

/-- A command of either device goes to the avatars, past the policy. -/
theorem dispatch (h : Tallied mode past t) (name : String) (args : List String) (remote : Bool) :
    Tallied mode past (t.dispatch name args remote).1 := by
  have hcore := t.core_dispatch name args remote
  refine of_unseen (t.seen_dispatch syncWatch name args remote alike_syncWatch)
    (h.of_same (congrArg Core.policy hcore) fun hr => ?_)
  exact (congrArg Core.isRunning hcore).symm.trans hr

/-- Whatever a turn does next keeps the tally. -/
theorem step (hstep : Turn.Step t t') (h : Tallied mode past t) : Tallied mode past t' := by
  cases hstep with
  | adjust f hf =>
    refine h.of_same hf.policy fun hr => ?_
    rw [Executor.isRunning, ← hf.phase]
    exact hr
  | refuse => exact of_unseen (t.seen_record syncWatch .runRejected) (h.of_same rfl id)
  | ask => exact of_unseen (t.seen_send syncWatch .run) (h.of_same rfl id)
  | dispatch name args remote => exact h.dispatch name args remote
  | begin => exact h.begin
  | gate tick hr => exact h.passGate hr tick
  | tick tick hr => exact h.makeTick hr tick
  | wait dt hr =>
    exact of_unseen ((t.seen_passTime dt syncWatch fun _ => rfl).trans (List.append_nil _).symm)
      (h.passTime hr dt)
  | finish outcome _ ho => exact h.finish ho
  | release =>
    exact of_unseen (t.seen_record syncWatch .unlockReceived)
      (h.of_lock h.consistent.release rfl rfl rfl rfl)
  | peerEnd => exact h.afterPeerEnd
  | abandon => exact h.abandon

end Tallied

end Turn

/-- Whatever is asked of a policy, its pieces fit each other, and its mode and the time that it
waits at most are those it was made with. So in every career of an executor, the last run so far
holds back no tick once the other device has finished, and releases the other device as often as the
mode wants. -/
theorem Career.keeps_tally {α : Type} [Avatar α] (role : Role) (mode : SyncMode) (timings : Timings)
    (wait : String) (own rival : α) (s : Script) (orders : List Order)
    (requests : List SyncPolicy.Request) :
    let p := requests.foldl SyncPolicy.take (.initial mode role timings)
    let c := (Executor.new role mode timings wait own rival).career s orders
    (p.Consistent ∧ p.mode = mode ∧ p.timeout = timings.timeout mode) ∧
      Tally mode (SyncDeed.lastRun (c.seen syncWatch)) := by
  intro p c
  obtain ⟨hconsistent, hmake⟩ := SyncPolicy.consistent_foldl_take mode role timings requests
  obtain ⟨hmode, hrest⟩ := Prod.mk.inj hmake
  obtain ⟨-, htimings⟩ := Prod.mk.inj hrest
  have htallied : Executor.Tallied mode (SyncDeed.lastRun (c.seen syncWatch)) c.exec :=
    preserve (P := fun past e _ => Executor.Tallied mode (SyncDeed.lastRun past) e)
      Turn.Tallied.step orders (fun _ _ _ _ => id)
      ⟨SyncPolicy.consistent_initial mode role timings, rfl, .nil mode, nofun, nofun⟩
  refine ⟨⟨hconsistent, hmode, ?_⟩, htallied.tally⟩
  rw [hconsistent.timeout, htimings, hmode]

end Tandem
