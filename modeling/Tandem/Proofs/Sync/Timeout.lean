import Tandem.Proofs.Sync.Consistent
import Tandem.Proofs.Binary32.Sum
import Mathlib.Logic.Function.Iterate

/-!
# Waiting for a device that is silent

A device that is locked is asked to wait for one stretch of time after the other, and adds them up
until it has waited for its timeout. The sum is rounded. As long as it grows the device gets closer
to its timeout, and times out in the end. But once it is so large that another stretch is tiny
against it, it does not grow any more, and the device waits for good.

So a device that hears nothing counts more time with each stretch, and after so many of them it
either times out, once, or stalls. It only stalls if its timeout is more than `2 ^ 24` stretches
long (`timesOut_or_stalls`).
-/

namespace Tandem

open Binary32

namespace Timings

variable {x : Float32}

theorem isAmount_of_isPause (h : isPause x = true) : IsAmount x := by
  obtain ⟨hfinite, hneg⟩ := Bool.and_eq_true_iff.mp h
  have hfinite : (parts x).isFinite = true := hfinite
  have hneg : ¬x < 0 := by simpa using hneg
  rw [Binary32.lt_iff, parts_zero] at hneg
  cases hx : parts x with
  | infinity s => rw [hx] at hfinite; cases hfinite
  | notANumber => rw [hx] at hfinite; cases hfinite
  | zero s => exact .zero hx
  | finite s m e hm =>
    cases s with
    | positive => exact .finite hx
    | negative => rw [hx] at hneg; exact absurd rfl hneg

/-- A span that may be configured is an amount of time. -/
theorem isAmount_of_isSpan (h : isSpan x = true) : IsAmount x :=
  isAmount_of_isPause (Bool.and_eq_true_iff.mp h).1

theorem units_pos_of_isSpan (h : isSpan x = true) : 0 < units x := by
  cases isAmount_of_isSpan h with
  | finite hx => exact units_pos_of_finite hx
  | @zero s hx =>
    rw [← ofParts_parts x, hx] at h
    cases s <;> exact absurd h (by decide)

/-- The timeout of a device that ever waits is finite if its timings can be used. -/
theorem isAmount_timeout {t : Timings} (h : t.check = .ok ()) {mode : SyncMode}
    (hmode : mode ≠ .async) : IsAmount (t.timeout mode) := by
  have hspans : isSpan t.stepTimeout = true ∧ isSpan t.commandTimeout = true := by
    unfold check at h
    grind
  cases mode with
  | async => exact absurd rfl hmode
  | stepSwitching => exact isAmount_of_isSpan hspans.1
  | cmdSwitching => exact isAmount_of_isSpan hspans.2

end Timings

namespace SyncPolicy

/-- The policy once it has waited for that stretch of time so many times over, and nothing else was
asked of it. -/
def waited (p : SyncPolicy) (dt : Float32) (k : Nat) : SyncPolicy :=
  (fun q => (q.waitFor dt).1)^[k] p

/-- The answer that a policy then gives when it is asked to wait once more. -/
def answered (p : SyncPolicy) (dt : Float32) (k : Nat) : BlockAnswer :=
  ((p.waited dt k).waitFor dt).2

/-- So many stretches of time are waited for, and more time is counted with each. -/
def CountsOn (p : SyncPolicy) (dt : Float32) (n : Nat) : Prop :=
  ∀ k < n, p.answered dt k = .blocked ∧ (p.waited dt k).heldFor < (p.waited dt (k + 1)).heldFor

/-- After so many stretches of time the next one is the last : the timeout is reached and the lock
is opened, so that nothing is waited for from then on. -/
structure TimesOut (p : SyncPolicy) (dt : Float32) (n : Nat) : Prop where
  answer : p.answered dt n = .timedOut ((p.waited dt n).heldFor + dt)
  due : p.timeout ≤ (p.waited dt n).heldFor + dt + timeSlack
  opened : (p.waited dt (n + 1)).locked = false
  later : ∀ k, n < k → p.answered dt k = .released

/-- After so many stretches of time, any more are waited for, and no more time is counted. -/
structure Stalls (p : SyncPolicy) (dt : Float32) (n : Nat) : Prop where
  answer : ∀ k, n ≤ k → p.answered dt k = .blocked
  same : ∀ k, n ≤ k → p.waited dt k = p.waited dt n

section Waiting

variable {p : SyncPolicy} {dt : Float32} {n : Nat}

theorem waited_succ (p : SyncPolicy) (dt : Float32) (k : Nat) :
    p.waited dt (k + 1) = (p.waitFor dt).1.waited dt k :=
  rfl

/-- A locked policy is released when the time has run out, and holds on otherwise. -/
theorem waitFor_of_locked (h : p.locked = true) (dt : Float32) :
    p.timeout ≤ p.heldFor + dt + timeSlack ∧
        p.waitFor dt = (p.release, .timedOut (p.heldFor + dt)) ∨
      ¬p.timeout ≤ p.heldFor + dt + timeSlack ∧
        p.waitFor dt = ({ p with heldFor := p.heldFor + dt }, .blocked) := by
  unfold waitFor
  rw [h]
  by_cases hdue : p.timeout ≤ p.heldFor + dt + timeSlack
  · exact Or.inl ⟨hdue, by simp [hdue]⟩
  · exact Or.inr ⟨hdue, by simp [hdue]⟩

/-- Where nothing is locked, every wait is over at once. -/
theorem answered_of_open (h : p.locked = false) (k : Nat) : p.answered dt k = .released := by
  induction k generalizing p with
  | zero => simp [answered, waited, waitFor, h]
  | succ k ih => exact ih (by simp [waitFor, h])

/-- A policy that opens its lock times out. -/
theorem timesOut_of_release (hdue : p.timeout ≤ p.heldFor + dt + timeSlack)
    (hw : p.waitFor dt = (p.release, .timedOut (p.heldFor + dt))) : p.TimesOut dt 0 where
  answer := congrArg Prod.snd hw
  due := hdue
  opened := by rw [waited_succ, hw]; rfl
  later k hk := by
    obtain ⟨k, rfl⟩ := Nat.exists_eq_succ_of_ne_zero (Nat.ne_of_gt hk)
    have hopen : (p.waitFor dt).1.locked = false := by rw [hw]; rfl
    exact answered_of_open hopen k

/-- A policy that is the same once it has waited stalls. -/
theorem stalls_of_same (hw : p.waitFor dt = (p, .blocked)) : p.Stalls dt 0 := by
  have hsame : ∀ k, p.waited dt k = p := Function.iterate_fixed (congrArg Prod.fst hw)
  refine ⟨fun k _ => ?_, fun k _ => hsame k⟩
  rw [answered, hsame, hw]

/-! ## The policy a stretch of time later -/

/-- If this wait counted, counting goes on for one wait more. -/
theorem CountsOn.succ (hanswer : (p.waitFor dt).2 = .blocked)
    (hlt : p.heldFor < (p.waitFor dt).1.heldFor) (h : (p.waitFor dt).1.CountsOn dt n) :
    p.CountsOn dt (n + 1)
  | 0, _ => ⟨hanswer, hlt⟩
  | k + 1, hk => h k (Nat.lt_of_succ_lt_succ hk)

/-- The time runs out one wait later, seen from in front of this one. -/
theorem TimesOut.succ (htimeout : (p.waitFor dt).1.timeout = p.timeout)
    (h : (p.waitFor dt).1.TimesOut dt n) : p.TimesOut dt (n + 1) where
  answer := h.answer
  due := htimeout ▸ h.due
  opened := h.opened
  later
    | k + 1, hk => h.later k (Nat.lt_of_succ_lt_succ hk)

/-- What stalls behind this wait stalls. -/
theorem Stalls.succ (h : (p.waitFor dt).1.Stalls dt n) : p.Stalls dt (n + 1) where
  answer
    | k + 1, hk => h.answer k (Nat.le_of_succ_le_succ hk)
  same
    | k + 1, hk => h.same k (Nat.le_of_succ_le_succ hk)

/-! ## Until the timeout -/

/-- The policy waits for the other device. The time that it has waited for and its timeout are
finite. -/
structure IsWaiting (p : SyncPolicy) : Prop where
  locked : p.locked = true
  heldFor : IsAmount p.heldFor
  timeout : IsAmount p.timeout

theorem isAmount_timeSlack : IsAmount timeSlack :=
  Timings.isAmount_of_isPause (by decide +kernel)

/-- A time that is not up yet is finite, and less than the timeout. -/
theorem units_lt_of_not_due {held timeout : Float32} (htimeout : IsAmount timeout)
    (hheld : parts held = .infinity .positive ∨ IsAmount held)
    (hdue : ¬timeout ≤ held + timeSlack) : IsAmount held ∧ units held < units timeout := by
  obtain hinf | hheld := hheld
  · rw [isAmount_timeSlack.infinity_add hinf] at hdue
    exact absurd (htimeout.le_of_infinity hinf) hdue
  · obtain hinf | ⟨hsum, hle, -⟩ := hheld.add_cases isAmount_timeSlack
    · exact absurd (htimeout.le_of_infinity hinf) hdue
    · rw [htimeout.le_iff hsum, Nat.not_le] at hdue
      exact ⟨hheld, Nat.lt_of_le_of_lt hle hdue⟩

/-- A policy that waits for another stretch of time times out, or counts it and is still below its
timeout. It only counts none of it if the stretch is tiny. -/
theorem IsWaiting.waitFor_cases (h : p.IsWaiting) (hdt : IsAmount dt) :
    p.timeout ≤ p.heldFor + dt + timeSlack ∧
        p.waitFor dt = (p.release, .timedOut (p.heldFor + dt)) ∨
      ∃ held, p.waitFor dt = ({ p with heldFor := held }, .blocked) ∧ IsAmount held ∧
        units p.heldFor ≤ units held ∧ units held < units p.timeout ∧
        (units held = units p.heldFor → 2 ^ 24 * units dt ≤ units p.heldFor) := by
  obtain hend | ⟨hdue, hw⟩ := waitFor_of_locked h.locked dt
  · exact Or.inl hend
  · have hsum := h.heldFor.add_cases hdt
    obtain ⟨hheld, hlt⟩ := units_lt_of_not_due h.timeout (hsum.imp_right And.left) hdue
    obtain ⟨-, hle, htiny⟩ := hsum.resolve_left hheld.ne_infinity
    exact Or.inr ⟨_, hw, hheld, hle, hlt, htiny⟩

/-- A policy that waits counts on, and then either times out or stalls. -/
theorem IsWaiting.outcome (h : p.IsWaiting) (hdt : IsAmount dt) (hpos : 0 < units dt) :
    ∃ n, p.CountsOn dt n ∧
      (p.TimesOut dt n ∨ p.Stalls dt n ∧ 2 ^ 24 * units dt < units p.timeout) := by
  -- By induction on what is left until the timeout.
  obtain ⟨left, hleft⟩ : ∃ left, units p.timeout - units p.heldFor = left := ⟨_, rfl⟩
  induction left using Nat.strong_induction_on generalizing p with
  | _ left ih =>
    obtain ⟨hdue, hw⟩ | ⟨held, hw, hheld, hle, hlt, htiny⟩ := h.waitFor_cases hdt
    · exact ⟨0, nofun, Or.inl (timesOut_of_release hdue hw)⟩
    obtain hgrows | hsame := Nat.lt_or_eq_of_le hle
    · have hnext : ({ p with heldFor := held } : SyncPolicy).IsWaiting :=
        ⟨h.locked, hheld, h.timeout⟩
      obtain ⟨n, hcounts, hends⟩ := ih _ (by dsimp only; omega) hnext rfl
      have hfst : (p.waitFor dt).1 = { p with heldFor := held } := congrArg Prod.fst hw
      have hgrows : p.heldFor < (p.waitFor dt).1.heldFor := by
        rw [hfst]
        exact (h.heldFor.lt_iff hheld).mpr hgrows
      have htimeout : (p.waitFor dt).1.timeout = p.timeout := by rw [hfst]
      rw [← hfst, htimeout] at hends
      rw [← hfst] at hcounts
      refine ⟨n + 1, hcounts.succ (congrArg Prod.snd hw) hgrows, ?_⟩
      exact hends.imp (.succ htimeout) (.imp_left .succ)
    · have hbound := htiny hsame.symm
      obtain rfl := h.heldFor.eq_of_units_eq hheld hsame (by omega)
      exact ⟨0, nofun, Or.inr ⟨stalls_of_same hw, Nat.lt_of_le_of_lt hbound hlt⟩⟩

/-! ## Whatever was asked before -/

/-- No time is waited for that is below zero, or not finite. -/
def Request.IsSound : Request → Prop
  | .waitFor dt => Timings.isPause dt = true
  | _ => True

/-- The time that has been waited stays an amount of time. -/
theorem isAmount_heldFor_take (hheld : IsAmount p.heldFor) (htimeout : IsAmount p.timeout)
    {r : Request} (hr : r.IsSound) : IsAmount (p.take r).heldFor := by
  cases r with
  | stop => exact hheld
  | beforeTick kind age =>
    rw [take]
    obtain hp | hp := p.beforeTick_fst kind age
    · rwa [hp]
    · rw [hp, handedOver]
      split <;> exact hheld
  | afterTick kind =>
    rw [take, afterTick_eq]
    dsimp only
    split
    · exact isAmount_zero
    · exact hheld
  | waitFor dt =>
    rw [take]
    cases hlocked : p.locked with
    | false =>
      rw [waitFor, hlocked]
      exact isAmount_zero
    | true =>
      have hwaiting : p.IsWaiting := ⟨hlocked, hheld, htimeout⟩
      obtain ⟨-, hw⟩ | ⟨held, hw, hheld, -⟩ :=
        hwaiting.waitFor_cases (Timings.isAmount_of_isPause hr)
      · rw [hw]
        exact isAmount_zero
      · rw [hw]
        exact hheld
  | _ => exact isAmount_zero

theorem isAmount_heldFor_foldl_take {requests : List Request} (h : p.Consistent)
    (hheld : IsAmount p.heldFor) (htimeout : IsAmount (p.timings.timeout p.mode))
    (hsound : ∀ r ∈ requests, r.IsSound) : IsAmount (requests.foldl take p).heldFor := by
  induction requests generalizing p with
  | nil => exact hheld
  | cons r requests ih =>
    obtain ⟨hr, hsound⟩ := List.forall_mem_cons.mp hsound
    have hmake : (p.take r).timings.timeout (p.take r).mode = p.timings.timeout p.mode :=
      congrArg (fun m => m.2.2.timeout m.1) (p.make_take r)
    exact ih (h.take r) (isAmount_heldFor_take hheld (h.timeout ▸ htimeout) hr)
      (hmake ▸ htimeout) hsound

end Waiting

/-- A locked policy that is asked to wait for the same time again and again counts on until it times
out, once, or until it stalls. It only stalls if its timeout is more than `2 ^ 24` times as long as
what it is asked to wait for. -/
theorem timesOut_or_stalls (mode : SyncMode) (role : Role) {timings : Timings}
    (hcheck : timings.check = .ok ()) {requests : List Request}
    (hsound : ∀ r ∈ requests, r.IsSound)
    (hlocked : (requests.foldl take (initial mode role timings)).locked = true) {dt : Float32}
    (hdt : Timings.isSpan dt = true) :
    ∃ n, (requests.foldl take (initial mode role timings)).CountsOn dt n ∧
      ((requests.foldl take (initial mode role timings)).TimesOut dt n ∨
        (requests.foldl take (initial mode role timings)).Stalls dt n ∧
          2 ^ 24 * units dt < units (timings.timeout mode)) := by
  obtain ⟨hconsistent, hmake⟩ := consistent_foldl_take mode role timings requests
  have hheld : mode ≠ .async → IsAmount (requests.foldl take (initial mode role timings)).heldFor :=
    fun hmode => isAmount_heldFor_foldl_take (consistent_initial mode role timings) isAmount_zero
      (Timings.isAmount_timeout hcheck hmode) hsound
  generalize requests.foldl take (initial mode role timings) = p at *
  cases hmake
  have hmode : p.mode ≠ .async := fun hmode => by
    cases hlocked.symm.trans (hconsistent.async hmode)
  have htimeout := Timings.isAmount_timeout hcheck hmode
  rw [← hconsistent.timeout] at htimeout ⊢
  exact IsWaiting.outcome ⟨hlocked, hheld hmode, htimeout⟩ (Timings.isAmount_of_isSpan hdt)
    (Timings.units_pos_of_isSpan hdt)

/-- A device that has made a step and hears nothing times out after three units of time. -/
theorem timesOut_after_step :
    let requests := [.start, .afterTick ⟨true, false⟩]
    let p := requests.foldl take (initial .stepSwitching .master .standard)
    (Timings.standard.check = .ok () ∧ (∀ r ∈ requests, r.IsSound) ∧ p.locked = true ∧
      Timings.isSpan 0.5 = true ∧ p.answered 0.5 5 = .timedOut 3) ∧
    ∃ n, p.CountsOn 0.5 n ∧ (p.TimesOut 0.5 n ∨
      p.Stalls 0.5 n ∧ 2 ^ 24 * units 0.5 < units (Timings.standard.timeout .stepSwitching)) := by
  intro requests p
  have hcheck : Timings.standard.check = .ok () := by decide +kernel
  have hsound : ∀ r ∈ requests, r.IsSound := by simp [requests, Request.IsSound]
  have hlocked : p.locked = true := by decide +kernel
  have hdt : Timings.isSpan 0.5 = true := by decide +kernel
  exact ⟨⟨hcheck, hsound, hlocked, hdt, by decide +kernel⟩,
    timesOut_or_stalls .stepSwitching .master hcheck hsound hlocked hdt⟩

/-- Timings with which a step waits for a very long time. -/
def patientTimings : Timings :=
  { Timings.standard with stepTimeout := 16777218 }

/-- A device that has made a step, and has almost waited for its timeout. -/
def longHeld : SyncPolicy :=
  [.start, .afterTick ⟨true, false⟩, .waitFor 16777216].foldl take
    (initial .stepSwitching .master patientTimings)

/-- A timeout that is two units of time away need not be reached by waiting for one after the
other. -/
theorem stalls_before_timeout : patientTimings.check = .ok () ∧ longHeld.locked = true ∧
    Timings.isSpan 1 = true ∧ longHeld.heldFor + 2 = longHeld.timeout ∧
    (∀ k, longHeld.answered 1 k = .blocked) ∧
    ∀ k, ¬(longHeld.waited 1 k).heldFor < (longHeld.waited 1 (k + 1)).heldFor := by
  have hstalls : longHeld.Stalls 1 0 := stalls_of_same (by decide +kernel)
  refine ⟨by decide +kernel, by decide +kernel, by decide +kernel, by decide +kernel,
    fun k => hstalls.answer k (Nat.zero_le k), fun k => ?_⟩
  rw [hstalls.same k (Nat.zero_le k), hstalls.same (k + 1) (Nat.zero_le _)]
  decide +kernel

end SyncPolicy

end Tandem
