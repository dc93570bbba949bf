import Tandem.Proofs.Sync.Policy

/-!
# Consistent policies

The state of a policy is written by eight operations, in different combinations
(`SyncPolicy.Request`). Whatever is asked of a policy, and in whatever order, its lock, its time of
waiting and its debt to the other device fit each other and its mode (`SyncPolicy.Consistent`), and
what it was made with stays (`SyncPolicy.consistent_foldl_take`).
-/

namespace Tandem.SyncPolicy

/-- What may be asked of a policy. -/
inductive Request where
  | start
  | stop
  | reset
  | beforeTick (kind : TickClass) (age : Option Float32)
  | afterTick (kind : TickClass)
  | waitFor (dt : Float32)
  | release
  | afterPeerEnd

/-- What the policy has become once that was asked of it. -/
def take (p : SyncPolicy) : Request → SyncPolicy
  | .start => p.start
  | .stop => p.stop
  | .reset => p.reset
  | .beforeTick kind age => (p.beforeTick kind age).1
  | .afterTick kind => (p.afterTick kind).1
  | .waitFor dt => (p.waitFor dt).1
  | .release => p.release
  | .afterPeerEnd => p.afterPeerEnd

/-- The pieces of a policy fit each other : it waits for no device that has finished, nor if it is
asynchronous, it has waited for no time unless it waits, and it only owes a release if the devices
take turns. It waits for as long as its mode says. -/
structure Consistent (p : SyncPolicy) : Prop where
  heard : p.peerFinished = true → p.locked = false
  async : p.mode = .async → p.locked = false
  heldFor : p.locked = false → p.heldFor = 0
  armed : p.armed = true → p.mode = .cmdSwitching
  timeout : p.timeout = p.timings.timeout p.mode

/-- What a policy is made with. -/
def make (p : SyncPolicy) : SyncMode × Role × Timings :=
  (p.mode, p.role, p.timings)

/-- A policy is consistent from the start. -/
theorem consistent_initial (mode : SyncMode) (role : Role) (timings : Timings) :
    (initial mode role timings).Consistent where
  heard := nofun
  async h := by
    have h : mode = .async := h
    simp [initial, h]
  heldFor _ := rfl
  armed := nofun
  timeout := rfl

variable {p : SyncPolicy}

/-- Once the other device has finished, nothing is locked. -/
theorem Consistent.isOpen (h : p.Consistent) (hheard : p.peerFinished = true) : p.isOpen :=
  Or.inr (h.heard hheard)

theorem Consistent.stop (h : p.Consistent) : p.stop.Consistent :=
  ⟨h.heard, h.async, h.heldFor, h.armed, h.timeout⟩

theorem Consistent.start (p : SyncPolicy) : p.start.Consistent := by
  have h := consistent_initial p.mode p.role p.timings
  exact ⟨h.heard, h.async, h.heldFor, h.armed, h.timeout⟩

theorem Consistent.release (h : p.Consistent) : p.release.Consistent :=
  ⟨fun _ => rfl, fun _ => rfl, fun _ => rfl, h.armed, h.timeout⟩

theorem Consistent.afterPeerEnd (h : p.Consistent) : p.afterPeerEnd.Consistent :=
  ⟨fun _ => rfl, fun _ => rfl, fun _ => rfl, h.armed, h.timeout⟩

theorem Consistent.handedOver (h : p.Consistent) : p.handedOver.Consistent := by
  unfold SyncPolicy.handedOver
  split
  · exact ⟨h.heard, h.async, h.heldFor, nofun, h.timeout⟩
  · exact h

/-- A tick keeps the policy consistent. -/
theorem Consistent.afterTick (h : p.Consistent) (kind : TickClass) :
    (p.afterTick kind).1.Consistent := by
  unfold SyncPolicy.afterTick
  split
  · exact h
  · next hk =>
    have hunheard : p.peerFinished = false := by
      simp only [Bool.or_eq_true, not_or, Bool.not_eq_true] at hk
      exact hk.2
    split
    · exact h
    · next hm =>
      refine ⟨fun hp => ?_, fun ha => ?_, nofun, h.armed, h.timeout⟩
      · cases hunheard.symm.trans hp
      · cases hm.symm.trans ha
    · next hm =>
      refine ⟨fun hp => ?_, fun ha => ?_, nofun, fun _ => hm, h.timeout⟩
      · cases hunheard.symm.trans hp
      · cases hm.symm.trans ha

/-- Waiting keeps the policy consistent, whether the time runs out or not. -/
theorem Consistent.waitFor (h : p.Consistent) (dt : Float32) : (p.waitFor dt).1.Consistent := by
  obtain ⟨hopen, hw⟩ | ⟨-, held, hw⟩ | ⟨hlocked, held, hw⟩ := p.waitFor_cases dt
  · rw [hw]
    exact ⟨h.heard, h.async, fun _ => rfl, h.armed, h.timeout⟩
  · rw [hw]
    exact h.release
  · rw [hw]
    refine ⟨h.heard, h.async, fun hopen => ?_, h.armed, h.timeout⟩
    cases hlocked.symm.trans hopen

/-- The question before a tick changes nothing, or hands the turn over. -/
theorem beforeTick_fst (p : SyncPolicy) (kind : TickClass) (age : Option Float32) :
    (p.beforeTick kind age).1 = p ∨ (p.beforeTick kind age).1 = p.handedOver := by
  obtain ⟨delay, h, -⟩ | ⟨-, -, h⟩ := p.beforeTick_cases kind age
  · exact Or.inl (by rw [h])
  · exact Or.inr (by rw [h])

/-- Whatever is asked of a consistent policy leaves it consistent. -/
theorem Consistent.take (h : p.Consistent) (r : Request) : (p.take r).Consistent := by
  cases r with
  | start => exact .start p
  | stop => exact h.stop
  | reset => exact consistent_initial p.mode p.role p.timings
  | beforeTick kind age =>
    rw [SyncPolicy.take]
    obtain hp | hp := p.beforeTick_fst kind age
    · rwa [hp]
    · rw [hp]
      exact h.handedOver
  | afterTick kind => exact h.afterTick kind
  | waitFor dt => exact h.waitFor dt
  | release => exact h.release
  | afterPeerEnd => exact h.afterPeerEnd

theorem make_handedOver (p : SyncPolicy) : p.handedOver.make = p.make := by
  unfold handedOver
  split <;> rfl

theorem make_afterTick (p : SyncPolicy) (kind : TickClass) :
    (p.afterTick kind).1.make = p.make := by
  rw [afterTick_eq]
  rfl

/-- Waiting does not change what the policy was made for. -/
theorem make_waitFor (p : SyncPolicy) (dt : Float32) : (p.waitFor dt).1.make = p.make := by
  obtain ⟨-, hw⟩ | ⟨-, held, hw⟩ | ⟨-, held, hw⟩ := p.waitFor_cases dt <;> rw [hw] <;> rfl

/-- Whatever is asked of a policy, what it was made with stays. -/
theorem make_take (p : SyncPolicy) (r : Request) : (p.take r).make = p.make := by
  cases r with
  | start => rfl
  | stop => rfl
  | reset => rfl
  | beforeTick kind age =>
    rw [take]
    obtain hp | hp := p.beforeTick_fst kind age
    · rw [hp]
    · rw [hp, make_handedOver]
  | afterTick kind => exact p.make_afterTick kind
  | waitFor dt => exact p.make_waitFor dt
  | release => rfl
  | afterPeerEnd => rfl

/-- Whatever is asked of a policy after it was made, it is consistent, and is what it was made
with. -/
theorem consistent_foldl_take (mode : SyncMode) (role : Role) (timings : Timings)
    (requests : List Request) :
    (requests.foldl take (initial mode role timings)).Consistent ∧
      (requests.foldl take (initial mode role timings)).make = (mode, role, timings) := by
  have h : ∀ (requests : List Request) {p : SyncPolicy}, p.Consistent →
      (requests.foldl take p).Consistent ∧ (requests.foldl take p).make = p.make := by
    intro requests
    induction requests with
    | nil => exact fun h => ⟨h, rfl⟩
    | cons r requests ih =>
      intro p h
      obtain ⟨hc, hm⟩ := ih (h.take r)
      exact ⟨hc, hm.trans (p.make_take r)⟩
  exact h requests (consistent_initial mode role timings)

end Tandem.SyncPolicy
