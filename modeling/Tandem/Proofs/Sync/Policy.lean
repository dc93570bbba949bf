import Tandem.Sync.Policy

/-!
# What the policy decides

Before a tick, the policy of a device either lets it go ahead and stays as it is, or holds it back
and hands over the turn, if the device has one to hand over (`beforeTick_cases`). It only holds
back ticks that take part in the synchronisation, and only if the device is locked.

A device that waits for the other one goes on once its lock is open (`waitFor_cases`).

After a tick that takes part in the synchronisation the device is locked, and releases the other
one either at once or at its next tick (`afterTick_eq`). A device whose peer has finished is left
alone.
-/

namespace Tandem.SyncPolicy

/-- The device has yet to release the other one, and does so when its next tick is held back. -/
def owesRelease (p : SyncPolicy) : Bool :=
  p.mode = .cmdSwitching && p.armed

/-- The policy once the other device has been released. -/
def handedOver (p : SyncPolicy) : SyncPolicy :=
  if p.mode = .cmdSwitching then { p with armed := false } else p

/-- A tick that takes part in the synchronisation need not wait for the other device. -/
def isOpen (p : SyncPolicy) : Prop :=
  p.mode = .async ∨ p.locked = false

/-- Either the tick may go ahead, and is free to if it takes part in the synchronisation, or it
takes part, is not free, and is held back. -/
theorem beforeTick_cases (p : SyncPolicy) (kind : TickClass) (age : Option Float32) :
    (∃ delay, p.beforeTick kind age = (p, .proceed delay, false) ∧
      (kind.lock = true → p.isOpen)) ∨
    (kind.lock = true ∧ ¬p.isOpen ∧
      p.beforeTick kind age = (p.handedOver, .block, p.owesRelease)) := by
  unfold beforeTick
  cases hk : kind.lock with
  | false => exact Or.inl ⟨_, rfl, nofun⟩
  | true =>
    cases hl : p.locked with
    | false =>
      refine Or.inl ?_
      cases hm : p.mode <;> exact ⟨_, rfl, fun _ => Or.inr hl⟩
    | true =>
      cases hm : p.mode with
      | async => exact Or.inl ⟨_, rfl, fun _ => Or.inl hm⟩
      | stepSwitching =>
        exact Or.inr ⟨rfl, by simp [isOpen, hm, hl], by simp [handedOver, owesRelease, hm]⟩
      | cmdSwitching =>
        exact Or.inr ⟨rfl, by simp [isOpen, hm, hl], by simp [handedOver, owesRelease, hm, hl]⟩

/-- A device that waits is released if its lock is open. If not, it waits on, or has waited for too
long and opens the lock itself. -/
theorem waitFor_cases (p : SyncPolicy) (dt : Float32) :
    (p.locked = false ∧ p.waitFor dt = ({ p with heldFor := 0 }, .released)) ∨
    (p.locked = true ∧ ∃ held, p.waitFor dt = (p.release, .timedOut held)) ∨
    (p.locked = true ∧ ∃ held, p.waitFor dt = ({ p with heldFor := held }, .blocked)) := by
  unfold waitFor
  cases hl : p.locked with
  | false => exact Or.inl ⟨rfl, by simp [← hl]⟩
  | true =>
    refine Or.inr ?_
    by_cases ht : p.heldFor + dt + timeSlack ≥ p.timeout
    · exact Or.inl ⟨rfl, p.heldFor + dt, by simp [ht]⟩
    · exact Or.inr ⟨rfl, p.heldFor + dt, by simp [ht, ← hl]⟩

/-- A tick of that class locks the device. -/
def locksAfter (p : SyncPolicy) (kind : TickClass) : Bool :=
  kind.lock && !p.peerFinished && p.mode ≠ .async

/-- A tick of that class releases the other device at once. -/
def releasesAfter (p : SyncPolicy) (kind : TickClass) : Bool :=
  kind.lock && !p.peerFinished && p.mode = .stepSwitching

/-- A tick of that class obliges the device to release the other one later. -/
def armsAfter (p : SyncPolicy) (kind : TickClass) : Bool :=
  kind.lock && !p.peerFinished && p.mode = .cmdSwitching

/-- A tick may lock the policy, which begins a new wait, arm it, and release the other device. -/
theorem afterTick_eq (p : SyncPolicy) (kind : TickClass) :
    p.afterTick kind =
      ({ p with
          locked := p.locksAfter kind || p.locked
          heldFor := if p.locksAfter kind then 0 else p.heldFor
          armed := p.armsAfter kind || p.armed }, p.releasesAfter kind) := by
  obtain ⟨role, timings, mode, locked, peerFinished, running, heldFor, timeout, armed⟩ := p
  obtain ⟨lock, wait⟩ := kind
  cases lock <;> cases peerFinished <;> cases mode <;> rfl

end Tandem.SyncPolicy
