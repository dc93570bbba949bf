import Tandem.Proofs.Binary32.Parts
import Tandem.Proofs.Run.Advance

/-!
# No bursts

An advance goes on as long as the policy lets ticks through, whatever time has passed and however
many ticks would have had their turn meanwhile. It does not catch up on them : of the ticks that the
policy restrains, those that take part in the synchronisation and those of waiting, an advance makes
one at most (`Turn.no_burst`).

A tick that is made is followed by one of age zero (`Turn.Advances.seen_after_tick`), and there the
gate holds back every restrained tick, if the timings ask for more than the slack : either the
device is locked, or the delay is the whole distance that the timings ask for
(`SyncPolicy.restrains_at_zero`).
-/

namespace Tandem

open Binary32

/-- The distances that the timings ask for are more than the slack that they are compared with. -/
structure Timings.ExceedSlack (t : Timings) : Prop where
  commandDelay : timeSlack < t.commandDelay
  smoothingDelay : timeSlack < t.smoothingDelay
  waitQuantum : timeSlack < t.waitQuantum

/-- The policy restrains ticks of that class. -/
def TickClass.restrained (kind : TickClass) : Bool :=
  kind.lock || kind.wait

/-- Sees the ticks that the policy restrains. -/
def restrainedWatch : Watch Tick where
  see
    | .tick t kind _ => if kind.restrained then some t else none
    | _ => none
  see_logged _ := rfl

theorem ofTicks_restrainedWatch : restrainedWatch.OfTicks :=
  ⟨fun _ => rfl, fun _ => rfl⟩

/-! ## The gate -/

/-- The tick has to wait. -/
def Gate.Holds : Gate → Prop
  | .block => True
  | .proceed delay => timeSlack < delay

theorem timeSlack_pos : 0 < timeSlack := by
  decide +kernel

/-- A tick with a delay that is not negligible has to wait. -/
theorem SyncPolicy.holds_proceedAfter {delay : Float32} (h : timeSlack < delay) :
    (proceedAfter delay).Holds := by
  rw [proceedAfter, if_pos (pos_of_lt timeSlack_pos h)]
  exact h

/-- Right after a tick, a restrained one has to wait. -/
theorem SyncPolicy.restrains_at_zero (p : SyncPolicy) (hp : p.timings.ExceedSlack)
    {kind : TickClass} (hk : kind.restrained = true) : (p.beforeTick kind (some 0)).2.1.Holds := by
  have hwait : timeSlack < remainder p.timings.waitQuantum (some 0) := by
    rw [remainder, sub_zero]
    exact hp.waitQuantum
  have hsmooth : timeSlack < remainder p.timings.smoothingDelay (some 0) := by
    rw [remainder, sub_zero]
    exact hp.smoothingDelay
  have hcommand : timeSlack < pause p.timings.commandDelay (some 0) := hp.commandDelay
  unfold beforeTick
  cases hl : kind.lock with
  | false =>
    have hw : kind.wait = true := by rwa [TickClass.restrained, hl, Bool.false_or] at hk
    rw [hw]
    exact holds_proceedAfter hwait
  | true =>
    cases p.mode with
    | async => exact holds_proceedAfter hcommand
    | stepSwitching =>
      cases p.locked with
      | true => trivial
      | false => exact holds_proceedAfter hsmooth
    | cmdSwitching =>
      cases p.locked with
      | true => trivial
      | false => exact holds_proceedAfter hcommand

namespace Turn

variable {α : Type} [Avatar α] {t t' : Turn α}

/-- A tick that has to wait is not let through. -/
theorem not_passed_of_holds {tick : Tick} (hready : t.exec.pending ≠ .ready)
    (h : (t.exec.policy.beforeTick (t.tickClass tick) t.exec.age).2.1.Holds) :
    (t.passGate tick).2 = false := by
  unfold passGate
  rw [if_neg hready]
  generalize t.exec.policy.beforeTick (t.tickClass tick) t.exec.age = r at h
  obtain ⟨p, gate, sending⟩ := r
  cases gate with
  | block => rfl
  | proceed delay =>
    have h : timeSlack < delay := h
    dsimp only
    rw [if_pos h]

/-! ## Advances -/

/-- After a tick, an advance makes no restrained tick. -/
theorem Advances.seen_after_tick (h : Advances t t') (hs : t.exec.policy.timings.ExceedSlack)
    (hpending : t.exec.pending = .nothing) (hage : t.exec.age = some 0) :
    t'.seen restrainedWatch = t.seen restrainedWatch := by
  induction h with
  | @cleared t _ => exact ofTicks_restrainedWatch.seen_finish t _
  | @done t _ _ _ _ => exact ofTicks_restrainedWatch.seen_finish t _
  | @held t _ _ c tick _ _ _ hg =>
    have hseen := ofTicks_restrainedWatch.seen_passGate (t.moveTo c) tick
    rwa [hg] at hseen
  | @tick t _ _ _ c tick _ _ _ hg _ _ ih =>
    obtain rfl := eq_of_passGate hg
    have hcore := (t.moveTo c).core_makeTick tick
    have hfree : ((t.moveTo c).tickClass tick).restrained = false := by
      by_contra hk
      have hready : (t.moveTo c).exec.pending ≠ .ready := by
        rw [show (t.moveTo c).exec.pending = .nothing from hpending]
        nofun
      have hholds := (t.moveTo c).exec.policy.restrains_at_zero hs (eq_true_of_ne_false hk)
      rw [← hage] at hholds
      cases (congrArg Prod.snd hg).symm.trans (not_passed_of_holds hready hholds)
    rw [ih ?_ (congrArg Core.pending hcore) (congrArg Core.age hcore),
      ofTicks_restrainedWatch.seen_makeTick]
    · show _ ++ (if ((t.moveTo c).tickClass tick).restrained then some tick else none).toList = _
      rw [hfree]
      exact List.append_nil _
    · have hsetup := congrArg Setup.timings ((t.moveTo c).setup_makeTick tick)
      exact (show ((t.moveTo c).makeTick tick).exec.policy.timings = _ from hsetup) ▸ hs

/-- Of restrained ticks, an advance makes one at most. -/
theorem Advances.length_seen_le (h : Advances t t') (hs : t.exec.policy.timings.ExceedSlack) :
    (t'.seen restrainedWatch).length ≤ (t.seen restrainedWatch).length + 1 := by
  have hnone : ∀ {t t' : Turn α}, t'.seen restrainedWatch = t.seen restrainedWatch →
      (t'.seen restrainedWatch).length ≤ (t.seen restrainedWatch).length + 1 :=
    fun h => h ▸ Nat.le_succ _
  cases h with
  | cleared _ => exact hnone (ofTicks_restrainedWatch.seen_finish t _)
  | done _ _ _ => exact hnone (ofTicks_restrainedWatch.seen_finish t _)
  | @held _ _ _ c tick _ _ _ hg =>
    have hseen := ofTicks_restrainedWatch.seen_passGate (t.moveTo c) tick
    rw [hg] at hseen
    exact hnone hseen
  | @tick _ _ _ _ c tick _ _ _ hg _ hrest =>
    obtain rfl := eq_of_passGate hg
    have hcore := (t.moveTo c).core_makeTick tick
    have hsetup := congrArg Setup.timings ((t.moveTo c).setup_makeTick tick)
    have hs' : ((t.moveTo c).makeTick tick).exec.policy.timings.ExceedSlack :=
      (show ((t.moveTo c).makeTick tick).exec.policy.timings = _ from hsetup) ▸ hs
    rw [hrest.seen_after_tick hs' (congrArg Core.pending hcore) (congrArg Core.age hcore),
      ofTicks_restrainedWatch.seen_makeTick, List.length_append]
    refine Nat.add_le_add_left ?_ _
    exact Option.length_toList_le

/-! ## Orders -/

/-- Whatever state an executor is in, and however much time passes, one order makes at most one tick
that takes part in the synchronisation or is one of waiting. -/
theorem no_burst (e : Executor α) (s : Script) (h : e.policy.timings.ExceedSlack) (o : Order) :
    (((e.on s).obey o).seen restrainedWatch).length ≤ 1 := by
  have hnone : (e.on s).seen restrainedWatch = [] := rfl
  obtain hp | ⟨t, ht, hp, hgoes⟩ := (e.on s).obey_cases o
  · rw [hp.seen ofTicks_restrainedWatch, hnone]
    exact Nat.zero_le _
  · have ht : t.exec.policy.timings.ExceedSlack :=
      (show t.exec.policy.timings = _ from congrArg Setup.timings ht.setup) ▸ h
    have hmost := t.advances_advance.length_seen_le ht
    rwa [hp.seen ofTicks_restrainedWatch, hnone, ← hgoes] at hmost

/-- Three commands of a device that steps in parallel. -/
def threeSteps : Script :=
  ⟨[.ofName "MOVE" ["EAST"], .ofName "MOVE" ["EAST"], .ofName "MOVE" ["EAST"]]⟩

/-- A device that steps in parallel and is released makes one of its two steps ahead, even if there
was time for many. -/
theorem no_burst_after_release :
    let t := ((Executor.new .slave .stepSwitching .standard "Continue_Sec"
      (GridAvatar.new .standard 6 true [] true)
      (GridAvatar.new .standard 6 false [] false)).on threeSteps).run.1.afterRelease
    let o := Order.call (.update 1000)
    (t.exec.policy.timings.ExceedSlack ∧
      ((t.exec.on t.script).obey o).seen restrainedWatch = [⟨[1], "MOVE", ["EAST"], false⟩]) ∧
      (((t.exec.on t.script).obey o).seen restrainedWatch).length ≤ 1 := by
  intro t o
  have hexceed : t.exec.policy.timings.ExceedSlack :=
    ⟨by decide +kernel, by decide +kernel, by decide +kernel⟩
  exact ⟨⟨hexceed, by decide +kernel⟩, no_burst t.exec t.script hexceed o⟩

end Turn

end Tandem
