import Tandem.Proofs.Pair.Moves

/-!
# How far devices that step in parallel drift apart

Of two devices that step in parallel, neither is more than one tick ahead of the other, except
for one tick for each time it has waited for too long (`Duet.drift_le`). Messages may be late,
overtake each other or get lost. The bound ends when a device learns that the other one has
finished, for then it goes on alone.

The invariant is `View.Bounded`. Whatever lets a device go ahead is paid for : the open lock that
it starts with, a timeout, or a release, which was sent with a tick of the other device. Releases
on their way count as if they had arrived, so that none of them counts twice.
-/

namespace Tandem

/-- Whether the end of the other device has been heard in this run, once there is another sign. -/
def Sign.hearing (heard : Bool) : Sign → Bool
  | .start => false
  | .peerEnd => true
  | _ => heard

/-- A device with those signs has heard the end of the other device in its run. -/
def heardEnd (signs : List Sign) : Bool :=
  signs.foldl Sign.hearing false

namespace Side

/-- One if the side is in a run and may make its next tick, none if not. -/
def freedom (σ : Side) : Nat :=
  if σ.isRunning = true ∧ σ.locked = false then 1 else 0

/-- A side can make one tick at most before it has to wait. -/
theorem freedom_le (σ : Side) : σ.freedom ≤ 1 := by
  unfold freedom
  split <;> omega

/-- What a side does by itself tells it nothing of the other one. -/
theorem hearing_signs (σ : Side) (a : Act) (heard : Bool) :
    (σ.signs a).foldl Sign.hearing heard = heard := by
  cases a with
  | tick t kind age =>
    cases hk : kind.lock <;> cases hr : σ.releasesAfter kind <;>
      simp [signs, hk, hr, Sign.hearing]
  | hold t => cases ho : σ.owesRelease <;> simp [signs, ho, Sign.hearing]
  | resume | timeOut | finish => rfl

/-- Releases are sent with ticks. -/
theorem count_unlock_signals_le {σ : Side} (hm : σ.mode = .stepSwitching) (a : Act) :
    (σ.signals a).count .unlock ≤ (σ.signs a).count .tick := by
  cases a with
  | tick t kind age =>
    cases hk : kind.lock <;> cases hh : σ.heard <;>
      simp [signals, signs, releasesAfter, hk, hh, hm, List.filterMap_cons, Sign.signal?]
  | hold t => simp [signals, signs, owesRelease, hm]
  | resume | timeOut | finish => simp [signals, signs, List.filterMap_cons, Sign.signal?]

/-- Until it has heard the end of the other side, a side gives up its freedom with each tick, and
gains it with each timeout. -/
theorem freedom_after_le {strict : Prop} (hs : strict) {σ : Side} (hm : σ.mode = .stepSwitching)
    (hh : σ.heard = false) {a : Act} (ha : σ.Allows strict a) :
    (σ.signs a).count .tick + (σ.after a).freedom ≤ σ.freedom + (σ.signs a).count .timeout := by
  cases a with
  | tick t kind age =>
    obtain ⟨hp, -, hopen⟩ := ha
    have hr : σ.isRunning = true := isRunning_of_running hp
    have hr' : (σ.after (.tick t kind age)).isRunning = true := hr
    cases hk : kind.lock with
    | true =>
      have hl : σ.locked = false := (hopen hs hk).resolve_left (by simp [hm])
      have hl' : (σ.after (.tick t kind age)).locked = true := by
        simp [after, locksAfter, hk, hh, hm]
      simp [freedom, hr, hl, hl', signs, releasesAfter, hk, hh, hm]
    | false =>
      have hl' : (σ.after (.tick t kind age)).locked = σ.locked := by simp [after, locksAfter, hk]
      simp [freedom, hr, hr', hl', signs, releasesAfter, hk]
  | hold t =>
    have hl : σ.locked = true := by simpa [isOpen, hm] using ha.2
    have hnone : (σ.after (.hold t)).freedom = 0 := if_neg (by simp [after, hl])
    rw [hnone]
    simp [signs, owesRelease, hm]
  | resume =>
    have hr : σ.isRunning = true := isRunning_of_waiting ha.1
    have hfree : σ.freedom = 1 := if_pos ⟨hr, ha.2⟩
    rw [hfree]
    simpa [signs] using freedom_le _
  | timeOut held =>
    exact Nat.add_le_add (Nat.zero_le _) (freedom_le _)
  | finish outcome =>
    have hend : (σ.after (.finish outcome)).isRunning = false :=
      isRunning_ended (ha.2.imp And.left id)
    have hnone : (σ.after (.finish outcome)).freedom = 0 := if_neg (by simp [hend])
    rw [hnone]
    simp [signs]

end Side

namespace View

/-- The side has heard the end of the other one in its run. -/
def heardEnd (v : View) (q : Role) : Bool :=
  Tandem.heardEnd (signsOf q v.history)

/-- Neither side gets ahead of what its start, the ticks of the other side and its timeouts
allow. -/
structure Bounded (v : View) : Prop where
  fresh : ∀ q, ¬v.started q → v.ticks q = 0 ∧ v.timeouts q = 0 ∧ v.releases q ≤ v.ticks q.peer
  heard : ∀ q, (v.side q).isRunning = true → (v.side q).heard = v.heardEnd q
  bound : ∀ q, v.started q → v.heardEnd q = false →
    v.ticks q + (v.side q).freedom + v.releases q ≤ 1 + v.ticks q.peer + v.timeouts q

namespace Bounded

variable {mode : SyncMode} {r : Role} {strict fifo : Prop} {v v' : View}

/-- At the start of a run, when no tick has been made, the bound holds. -/
theorem of_asked (h : v.Asked mode r) : v.Bounded := by
  obtain ⟨σ, hσ⟩ := h.begun
  have hnone : ∀ q, v.ticks q = 0 ∧ v.timeouts q = 0 ∧ v.releases q = 0 ∧ v.heardEnd q = false := by
    intro q
    rw [ticks, timeouts, releases, heardEnd, h.history]
    rcases q.eq_or_eq_peer r with rfl | rfl
    · rw [h.own]
      cases q <;> decide
    · rw [h.peer]
      cases r <;> decide
  refine ⟨fun q _ => ?_, fun q hq => ?_, fun q _ _ => ?_⟩
  · obtain ⟨ht, ho, hu, -⟩ := hnone q
    exact ⟨ht, ho, by omega⟩
  · rw [(hnone q).2.2.2]
    rcases q.eq_or_eq_peer r with rfl | rfl
    · rw [hσ]
      rfl
    · cases h.idle.symm.trans hq
  · obtain ⟨ht, ho, hu, -⟩ := hnone q
    have := (v.side q).freedom_le
    omega

/-- A side has taken some signals off its inbox and become another. -/
theorem note (h : v.Bounded) {q : Role} {σ : Side} {signals : List Signal} {signs : List Sign}
    (hsub : signals.count .unlock ≤ v.releases q)
    (fresh : ¬v.started q → .start ∉ signs → signs.count .tick = 0 ∧ signs.count .timeout = 0)
    (heard : σ.isRunning = true → σ.heard = signs.foldl Sign.hearing (v.heardEnd q))
    (bound : v.started q ∨ .start ∈ signs → signs.foldl Sign.hearing (v.heardEnd q) = false →
      v.ticks q + signs.count .tick + σ.freedom + signals.count .unlock ≤
        1 + v.ticks q.peer + (v.timeouts q + signs.count .timeout))
    (given : (signs.filterMap Sign.signal?).count .unlock ≤ signs.count .tick) :
    ((v.setInbox q signals).note q σ signs).Bounded := by
  have hticks : ((v.setInbox q signals).note q σ signs).ticks q = v.ticks q + signs.count .tick :=
    ticks_note_self ..
  have hticks' : ((v.setInbox q signals).note q σ signs).ticks q.peer = v.ticks q.peer :=
    ticks_note_peer ..
  have htimeouts : ((v.setInbox q signals).note q σ signs).timeouts q =
      v.timeouts q + signs.count .timeout := timeouts_note_self ..
  have htimeouts' : ((v.setInbox q signals).note q σ signs).timeouts q.peer =
      v.timeouts q.peer := timeouts_note_peer ..
  have hheard : ((v.setInbox q signals).note q σ signs).heardEnd q =
      signs.foldl Sign.hearing (v.heardEnd q) := by
    rw [heardEnd, signsOf_note_self, Tandem.heardEnd, List.foldl_append]
    rfl
  have hheard' : ((v.setInbox q signals).note q σ signs).heardEnd q.peer = v.heardEnd q.peer := by
    rw [heardEnd, signsOf_note_peer]
    rfl
  refine ⟨fun p hp => ?_, fun p hp => ?_, fun p hp hh => ?_⟩
  · rcases p.eq_or_eq_peer q with rfl | rfl
    · rw [started_note_self, started_setInbox, not_or] at hp
      obtain ⟨ht, ho⟩ := fresh hp.1 hp.2
      obtain ⟨ht', ho', hu⟩ := h.fresh p hp.1
      rw [hticks, htimeouts, releases_note_self, hticks']
      omega
    · rw [started_note_peer, started_setInbox] at hp
      obtain ⟨ht, ho, hu⟩ := h.fresh _ hp
      rw [Role.peer_peer] at hu ⊢
      rw [hticks', htimeouts', releases_note_peer, hticks]
      omega
  · rcases p.eq_or_eq_peer q with rfl | rfl
    · rw [side_note_self] at hp ⊢
      rw [hheard, heard hp]
    · rw [side_note_peer] at hp ⊢
      rw [hheard']
      exact h.heard _ hp
  · rcases p.eq_or_eq_peer q with rfl | rfl
    · rw [started_note_self, started_setInbox] at hp
      rw [hheard] at hh
      have hb := bound hp hh
      rw [hticks, side_note_self, releases_note_self, hticks', htimeouts]
      exact hb
    · rw [started_note_peer, started_setInbox] at hp
      rw [hheard'] at hh
      have hb := h.bound _ hp hh
      rw [Role.peer_peer] at hb ⊢
      rw [hticks', side_note_peer, side_setInbox, releases_note_peer, hticks, htimeouts']
      omega

/-- What a side does by itself keeps the bound. -/
theorem act (h : v.Bounded) {q : Role} {a : Act} (hm : (v.side q).mode = .stepSwitching)
    (hs : strict) (hq : v.started q) (ha : (v.side q).Allows strict a) : (v.act q a).Bounded := by
  rw [act_eq]
  refine h.note (Nat.le_refl _) (fun hn => absurd hq hn) (fun hr => ?_) (fun _ hh => ?_)
    (Side.count_unlock_signals_le hm a)
  · rw [Side.hearing_signs, ← h.heard q ha.isRunning]
    exact Side.heard_after ha hr
  · rw [Side.hearing_signs] at hh
    have hb := h.bound q hq hh
    have hfree := Side.freedom_after_le hs hm ((h.heard q ha.isRunning).trans hh) ha
    rw [releases] at hb
    omega

/-- Whatever happens to the two sides keeps the bound. -/
theorem step (h : v.Bounded) (ho : v.Orderly .stepSwitching r fifo) (hs : strict)
    (he : v.Event strict fifo v') : v'.Bounded := by
  cases he with
  | act q a hq ha => exact h.act (ho.mode q) hs hq ha
  | start q sooner later hin hrun hq =>
    obtain ⟨ht, hout, hu⟩ := h.fresh q hq
    have hsub : (sooner ++ later).count .unlock ≤ v.releases q := by
      simp [releases, hin, List.count_append]
    refine h.note hsub (fun _ hn => absurd List.mem_cons_self hn) (fun _ => rfl) (fun _ _ => ?_)
      (by decide)
    have := (v.side q).begun.freedom_le
    have h0 : [Sign.start].count .tick = 0 := by decide
    omega
  | release q sooner later hin hq =>
    have hone : v.releases q = (sooner ++ later).count .unlock + 1 := by
      simp [releases, hin, List.count_append]
      omega
    refine h.note (by omega) (fun _ _ => ⟨rfl, rfl⟩) (h.heard q) (fun hs hh => ?_) (by decide)
    have hb := h.bound q (hs.resolve_right List.not_mem_nil) hh
    have := (v.side q).released.freedom_le
    rw [List.count_nil, List.count_nil]
    omega
  | peerEnd q sooner later hin hq =>
    have hsub : (sooner ++ later).count .unlock ≤ v.releases q := by
      simp [releases, hin, List.count_append]
    refine h.note hsub (fun _ _ => by decide) (fun hr => ?_) (fun _ hh => by cases hh) (by decide)
    exact Side.heard_peerEnded hr
  | lose q s sooner later hin hf =>
    have hsub : (sooner ++ later).count .unlock ≤ v.releases q := by
      simp only [releases, hin, List.count_append, List.count_cons]
      omega
    rw [← (v.setInbox q (sooner ++ later)).note_self q]
    refine h.note hsub (fun _ _ => ⟨rfl, rfl⟩) (h.heard q) (fun hs hh => ?_) (by decide)
    have hb := h.bound q (hs.resolve_right List.not_mem_nil) hh
    rw [side_setInbox, List.count_nil, List.count_nil]
    omega

end Bounded

end View

namespace Duet

variable {α : Type}

/-- The device has heard in its run that the other one has finished. -/
def hasHeardEnd (d : Duet α) (q : Role) : Bool :=
  heardEnd (signsOf q d.signs)

variable [Avatar α]

/-- A device that steps in parallel with another, and has not heard that the other one has
finished, has made at most one tick more than the other one and one for each timeout. -/
theorem drift_le [Avatar.Steady α] {d : Duet α} (hd : d.Ready .stepSwitching) (r : Role)
    (ms : List Move) :
    let d' := (d.ask r).moves ms
    (∀ q, d'.hasHeardEnd q = false →
      d'.lockTicks q ≤ d'.lockTicks q.peer + 1 + d'.timeouts q) ∧
    ((∀ q, d'.timeouts q = 0) → ∀ q, d'.hasHeardEnd q = false →
      d'.lockTicks q ≤ d'.lockTicks q.peer + 1) := by
  intro d'
  have hinv : d'.view.Orderly .stepSwitching r False ∧ d'.view.Bounded :=
    view_induction (P := fun v => v.Orderly .stepSwitching r False ∧ v.Bounded) hd r nofun
      (fun v hv => ⟨.of_asked hv, .of_asked hv⟩)
      fun v v' hv hs => ⟨hv.1.step (hv.1.event hs), hv.2.step hv.1 ‹_› (hv.1.event hs)⟩
  obtain ⟨-, hbounded⟩ := hinv
  have hbound : ∀ q, d'.hasHeardEnd q = false →
      d'.lockTicks q ≤ d'.lockTicks q.peer + 1 + d'.timeouts q := by
    intro q hq
    have hle : d'.view.ticks q ≤ d'.view.ticks q.peer + 1 + d'.view.timeouts q := by
      by_cases hs : d'.view.started q
      · have hb := hbounded.bound q hs hq
        omega
      · have hb := hbounded.fresh q hs
        omega
    exact hle
  refine ⟨hbound, fun hnone q hq => ?_⟩
  have hb := hbound q hq
  rw [hnone q] at hb
  exact hb

/-- Two devices that step in parallel, with three moves each. -/
def threeSteps : Duet GridAvatar :=
  onGrid .stepSwitching fun _ =>
    ⟨[.ofName "MOVE" ["EAST"], .ofName "MOVE" ["EAST"], .ofName "MOVE" ["EAST"]]⟩

/-- The slave has started and made a move, and the master has heard of it before it hears of
anything else, has gone on, and has then waited for too long. -/
def overtaking : List Move :=
  [.deliver .slave 0, .deliver .master 1, .update .master 0.5, .update .master 3]

/-- The master makes three ticks to one of the slave, which is just what its timeout allows. -/
theorem drift_le_overtaking :
    ((threeSteps.ask .master).moves overtaking).lockTicks .master = 3 ∧
    ((threeSteps.ask .master).moves overtaking).lockTicks .master ≤
      ((threeSteps.ask .master).moves overtaking).lockTicks .slave + 1 +
        ((threeSteps.ask .master).moves overtaking).timeouts .master := by
  obtain ⟨hbound, -⟩ :=
    drift_le (ready_onGrid .stepSwitching _ : threeSteps.Ready _) .master overtaking
  exact ⟨by decide +kernel, hbound .master (by decide +kernel)⟩

/-- Two devices that step in parallel, of which only the master has anything to do. -/
def lonely : Duet GridAvatar :=
  onGrid .stepSwitching fun
    | .master => ⟨[.ofName "MOVE" ["EAST"], .ofName "MOVE" ["EAST"]]⟩
    | .slave => .empty

/-- Once a device has heard that the other one has finished, it goes on alone, and gets ahead of
the other one without any timeout. -/
theorem ahead_of_finished_peer :
    lonely.Ready .stepSwitching ∧
    ¬∀ ms : List Move, (∀ m ∈ ms, m.inOrder) →
      (∀ q, ((lonely.ask .master).moves ms).timeouts q = 0) →
      ∀ q, ((lonely.ask .master).moves ms).lockTicks q ≤
        ((lonely.ask .master).moves ms).lockTicks q.peer + 1 := by
  refine ⟨ready_onGrid .stepSwitching _, fun hall => ?_⟩
  have hms : ∀ m ∈ [Move.deliver .slave 0, .deliver .master 0, .update .master 0.5],
      m.inOrder := by
    intro m hm
    simp only [List.mem_cons, List.not_mem_nil, or_false] at hm
    obtain rfl | rfl | rfl := hm <;> trivial
  have hle := hall _ hms (fun q => by cases q <;> decide +kernel) .master
  exact absurd hle (by decide +kernel)

end Duet

end Tandem
