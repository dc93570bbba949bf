import Tandem.Proofs.Pair.Moves

/-!
# The floor of devices that take turns

Of two devices that take turns, one has the floor. It has an open lock, or has made its command
and has yet to release the other one, or a release for it is on its way. As long as no device
waits for too long and none learns that the other one has finished, there is exactly one floor
(`Duet.one_floor`), so that the ticks of the two devices alternate, the first one being the
slave's.

The invariant is `View.Floor`, which also tells whose tick is next from where the floor is : it is
the side with the open lock or the release on its way to it, or the peer of the side that is yet
to release it.
-/

namespace Tandem

/-! ## Turns -/

/-- The device that makes the tick of that number. -/
def turnAt (n : Nat) : Role :=
  if n % 2 = 0 then .slave else .master

/-- The devices that make the first `n` ticks. -/
def turns (n : Nat) : List Role :=
  (List.range n).map turnAt

/-- The two devices take turns. -/
theorem turnAt_succ (n : Nat) : turnAt (n + 1) = (turnAt n).peer := by
  unfold turnAt
  rcases Nat.mod_two_eq_zero_or_one n with h | h
  · rw [if_neg (by omega), if_pos h]
    rfl
  · rw [if_pos (by omega), if_neg (by omega)]
    rfl

/-- Each turn goes to the one whose turn it was not. -/
theorem turns_succ (n : Nat) : turns (n + 1) = turns n ++ [turnAt n] := by
  rw [turns, List.range_succ, List.map_append]
  rfl

/-- The slave is never behind, and never more than one tick ahead. -/
theorem count_turns : ∀ n : Nat,
    (turns n).count .slave = (n + 1) / 2 ∧ (turns n).count .master = n / 2
  | 0 => ⟨rfl, rfl⟩
  | n + 1 => by
    obtain ⟨hs, hm⟩ := count_turns n
    rw [turns_succ, List.count_append, List.count_append, hs, hm, turnAt]
    rcases Nat.mod_two_eq_zero_or_one n with h | h
    · rw [if_pos h, show [Role.slave].count .slave = 1 from rfl,
        show [Role.slave].count .master = 0 from rfl]
      omega
    · rw [if_neg (by omega), show [Role.master].count .slave = 0 from rfl,
        show [Role.master].count .master = 1 from rfl]
      omega

/-- The devices in the order of the ticks that take part in the synchronisation. -/
def tickOrder (history : List (Role × Sign)) : List Role :=
  history.filterMap fun entry => if entry.2 = .tick then some entry.1 else none

/-- What one side adds to the history adds its ticks to the order. -/
theorem tickOrder_append (q : Role) (history : List (Role × Sign)) (signs : List Sign) :
    tickOrder (history ++ signs.map fun sign => (q, sign)) =
      tickOrder history ++ List.replicate (signs.count .tick) q := by
  have hmap : (signs.map fun sign => (q, sign)).filterMap
      (fun entry => if entry.2 = .tick then some entry.1 else none) =
      List.replicate (signs.count .tick) q := by
    induction signs with
    | nil => rfl
    | cons sign signs ih =>
      rw [List.map_cons, List.filterMap_cons, ih]
      cases sign <;> simp [List.replicate_succ]
  rw [tickOrder, tickOrder, List.filterMap_append, hmap]

/-- Each side has as many places in the order as it has made ticks. -/
theorem count_tickOrder (q : Role) (history : List (Role × Sign)) :
    (tickOrder history).count q = (signsOf q history).count .tick := by
  induction history with
  | nil => rfl
  | cons entry history ih =>
    obtain ⟨p, sign⟩ := entry
    rw [tickOrder, signsOf] at ih ⊢
    by_cases hp : p = q <;> cases sign <;> simp [hp, ih]

/-! ## Where the floor is -/

namespace View

/-- One if the side has an open lock, or will have when it starts. -/
def unlocked (v : View) (q : Role) : Nat :=
  (!if v.started q then (v.side q).locked else (v.side q).startsLocked).toNat

/-- One if the side has yet to release the other one. -/
def armed (v : View) (q : Role) : Nat :=
  if v.started q then (v.side q).armed.toNat else 0

/-- The floors that the side has or is about to get or to give. -/
def floors (v : View) (q : Role) : Nat :=
  v.unlocked q + v.armed q + v.releases q

/-- There is one floor, whichever side is looked at. -/
theorem floors_of_role {v : View} {q : Role} (h : v.floors q + v.floors q.peer = 1) (p : Role) :
    v.floors p + v.floors p.peer = 1 := by
  rcases p.eq_or_eq_peer q with rfl | rfl
  · exact h
  · rw [Role.peer_peer, Nat.add_comm]
    exact h

/-- The number of ticks that take part in the synchronisation. -/
def made (v : View) : Nat :=
  (tickOrder v.history).length

/-- There is one floor, and it tells whose turn it is. -/
structure Floor (v : View) : Prop where
  unheard : ∀ q, v.started q → (v.side q).heard = false
  one : ∀ q, v.floors q + v.floors q.peer = 1
  order : tickOrder v.history = turns v.made
  here : ∀ q, v.unlocked q + v.releases q ≠ 0 → turnAt v.made = q
  there : ∀ q, v.armed q ≠ 0 → turnAt v.made = q.peer

/-- No side has waited for too long, and none has heard the end of the other one. -/
def Peaceful (v : View) : Prop :=
  ∀ q, v.timeouts q = 0 ∧ .peerEnd ∉ signsOf q v.history

/-- A side that has started has the floor if its lock is open. -/
theorem unlocked_of_started {v : View} {q : Role} (h : v.started q) :
    v.unlocked q = (!(v.side q).locked).toNat := by
  rw [unlocked, if_pos h]

/-- A side that has started owes the floor if it is armed. -/
theorem armed_of_started {v : View} {q : Role} (h : v.started q) :
    v.armed q = (v.side q).armed.toNat := by
  rw [armed, if_pos h]

section Note

variable {v : View} {q : Role} {σ : Side} {signals : List Signal} {signs : List Sign}

theorem unlocked_note_self (hs : v.started q ∨ .start ∈ signs) :
    ((v.setInbox q signals).note q σ signs).unlocked q = (!σ.locked).toNat := by
  rw [unlocked_of_started ((started_note_self (v.setInbox q signals) q σ signs).mpr hs),
    side_note_self]

theorem unlocked_note_peer :
    ((v.setInbox q signals).note q σ signs).unlocked q.peer = v.unlocked q.peer := by
  simp only [unlocked, started_note_peer, started_setInbox, side_note_peer, side_setInbox]

theorem armed_note_self (hs : v.started q ∨ .start ∈ signs) :
    ((v.setInbox q signals).note q σ signs).armed q = σ.armed.toNat := by
  rw [armed_of_started ((started_note_self (v.setInbox q signals) q σ signs).mpr hs),
    side_note_self]

theorem armed_note_peer :
    ((v.setInbox q signals).note q σ signs).armed q.peer = v.armed q.peer := by
  simp only [armed, started_note_peer, started_setInbox, side_note_peer, side_setInbox]

end Note

namespace Floor

variable {r : Role} {strict : Prop} {v v' : View}

/-- While no end has been heard, none is. -/
theorem unheard_note (h : v.Floor) {q : Role} {σ : Side} {signals : List Signal}
    {signs : List Sign} (hheard : σ.heard = false) (p : Role)
    (hp : ((v.setInbox q signals).note q σ signs).started p) :
    (((v.setInbox q signals).note q σ signs).side p).heard = false := by
  rcases p.eq_or_eq_peer q with rfl | rfl
  · rwa [side_note_self]
  · rw [started_note_peer] at hp
    rw [side_note_peer]
    exact h.unheard _ hp

/-- What a side may hand over while nobody makes a tick. -/
theorem still (h : v.Floor) {q : Role} {σ : Side} {signals : List Signal} {signs : List Sign}
    (hs : v.started q ∨ .start ∈ signs) (hheard : σ.heard = false)
    (hnone : signs.count .tick = 0)
    (hsum : (!σ.locked).toNat + σ.armed.toNat + signals.count .unlock +
      (signs.filterMap Sign.signal?).count .unlock = v.floors q)
    (hhere : (!σ.locked).toNat + signals.count .unlock ≠ 0 → v.unlocked q + v.releases q ≠ 0)
    (hthere : σ.armed.toNat + (signs.filterMap Sign.signal?).count .unlock ≠ 0 → v.armed q ≠ 0) :
    ((v.setInbox q signals).note q σ signs).Floor := by
  have horder : tickOrder ((v.setInbox q signals).note q σ signs).history =
    tickOrder v.history := by
    rw [history_note, tickOrder_append, hnone]
    exact List.append_nil _
  have hmade : ((v.setInbox q signals).note q σ signs).made = v.made :=
    congrArg List.length horder
  refine ⟨h.unheard_note hheard, floors_of_role (q := q) ?_, by rw [horder, hmade, h.order],
    fun p hp => ?_, fun p hp => ?_⟩
  · have hone := h.one q
    rw [← hsum] at hone
    rw [floors, floors, unlocked_note_self hs, armed_note_self hs, releases_note_self,
      unlocked_note_peer, armed_note_peer, releases_note_peer]
    rw [floors] at hone
    omega
  · rw [hmade]
    rcases p.eq_or_eq_peer q with rfl | rfl
    · rw [unlocked_note_self hs, releases_note_self] at hp
      exact h.here p (hhere hp)
    · rw [unlocked_note_peer, releases_note_peer] at hp
      by_cases hsent : (signs.filterMap Sign.signal?).count .unlock = 0
      · exact h.here _ (by omega)
      · exact h.there q (hthere (by omega))
  · rw [hmade]
    rcases p.eq_or_eq_peer q with rfl | rfl
    · rw [armed_note_self hs] at hp
      exact h.there p (hthere (by omega))
    · rw [armed_note_peer] at hp
      exact h.there _ hp

/-- A side that keeps its lock and its debt, and sends no release, keeps the floor where it is. -/
theorem keep (h : v.Floor) {q : Role} {σ : Side} {signs : List Sign} (hs : v.started q)
    (hheard : σ.heard = false) (hl : σ.locked = (v.side q).locked)
    (ha : σ.armed = (v.side q).armed) (hnone : signs.count .tick = 0)
    (hgiven : (signs.filterMap Sign.signal?).count .unlock = 0) :
    ((v.setInbox q (v.inbox q)).note q σ signs).Floor := by
  refine h.still (.inl hs) hheard hnone ?_ ?_ ?_
  · rw [hgiven, hl, ha, floors, unlocked_of_started hs, armed_of_started hs]
    rfl
  · rw [hl, unlocked_of_started hs]
    exact id
  · rw [hgiven, ha, armed_of_started hs]
    exact id

/-- The side that has the floor makes a tick. -/
theorem tick (h : v.Floor) {q : Role} {σ : Side} (hs : v.started q) (hheard : σ.heard = false)
    (hopen : (v.side q).locked = false) (hl : σ.locked = true) (ha : σ.armed = true) :
    ((v.setInbox q (v.inbox q)).note q σ [.tick]).Floor := by
  have hone := h.one q
  have hfree : v.unlocked q = 1 := by
    rw [unlocked_of_started hs, hopen]
    rfl
  have hturn : turnAt v.made = q := h.here q (by omega)
  have horder : tickOrder ((v.setInbox q (v.inbox q)).note q σ [.tick]).history =
      turns (v.made + 1) := by
    rw [history_note, tickOrder_append, turns_succ, hturn, ← h.order]
    rfl
  have hmade : ((v.setInbox q (v.inbox q)).note q σ [.tick]).made = v.made + 1 := by
    rw [made, horder]
    simp [turns]
  have hunlocked : ((v.setInbox q (v.inbox q)).note q σ [.tick]).unlocked q = 0 := by
    rw [unlocked_note_self (.inl hs), hl]
    rfl
  have harmed : ((v.setInbox q (v.inbox q)).note q σ [.tick]).armed q = 1 := by
    rw [armed_note_self (.inl hs), ha]
    rfl
  have hreleases : ((v.setInbox q (v.inbox q)).note q σ [.tick]).releases q = v.releases q :=
    releases_note_self ..
  have hreleases' : ((v.setInbox q (v.inbox q)).note q σ [.tick]).releases q.peer =
      v.releases q.peer := releases_note_peer ..
  rw [floors, floors] at hone
  refine ⟨h.unheard_note hheard, floors_of_role (q := q) ?_, by rw [horder, hmade],
    fun p hp => ?_, fun p hp => ?_⟩
  · rw [floors, floors, hunlocked, harmed, hreleases, unlocked_note_peer, armed_note_peer,
      hreleases']
    omega
  · rcases p.eq_or_eq_peer q with rfl | rfl
    · rw [hunlocked, hreleases] at hp
      omega
    · rw [unlocked_note_peer, hreleases'] at hp
      omega
  · rcases p.eq_or_eq_peer q with rfl | rfl
    · rw [hmade, turnAt_succ, hturn]
    · rw [armed_note_peer] at hp
      omega

/-- Before anybody has done anything, the slave has the floor. -/
theorem of_asked (h : v.Asked .cmdSwitching r) : v.Floor := by
  obtain ⟨σ, hσ⟩ := h.begun
  have hbegun : (v.side r).heard = false ∧ (v.side r).armed = false ∧
      (v.side r).locked = (v.side r).startsLocked := by
    rw [hσ]
    exact ⟨rfl, rfl, rfl⟩
  have hs : v.started r := by simp [started, h.history]
  have hsp : ¬v.started r.peer := by simp [started, h.history, r.peer_ne]
  have hlocked : ∀ q, (v.side q).startsLocked = decide (q = .master) := by
    intro q
    rw [Side.startsLocked, h.mode, h.role]
    rfl
  have hall : ∀ q, v.unlocked q = (!decide (q = .master)).toNat ∧ v.armed q = 0 ∧
      v.releases q = 0 := by
    intro q
    rcases q.eq_or_eq_peer r with rfl | rfl
    · refine ⟨?_, ?_, ?_⟩
      · rw [unlocked_of_started hs, hbegun.2.2, hlocked]
      · rw [armed_of_started hs, hbegun.2.1]
        rfl
      · rw [releases, h.own]
        rfl
    · refine ⟨?_, if_neg hsp, ?_⟩
      · rw [unlocked, if_neg hsp, hlocked]
      · rw [releases, h.peer]
        rfl
  have hnone : tickOrder v.history = [] := by
    rw [h.history]
    rfl
  have hmade : v.made = 0 := congrArg List.length hnone
  refine ⟨fun q hq => ?_, fun q => ?_, by rw [hmade, hnone]; rfl, fun q hq => ?_, fun q hq => ?_⟩
  · rcases q.eq_or_eq_peer r with rfl | rfl
    · exact hbegun.1
    · exact absurd hq hsp
  · rw [floors, floors, (hall q).1, (hall q).2.1, (hall q).2.2, (hall q.peer).1, (hall q.peer).2.1,
      (hall q.peer).2.2]
    cases q <;> rfl
  · rw [(hall q).1, (hall q).2.2] at hq
    rw [hmade]
    cases q with
    | master => exact absurd rfl hq
    | slave => rfl
  · exact absurd (hall q).2.1 hq

/-- A tick that takes part is made by the side that has the floor, which owes it from then on. -/
theorem act_tick (h : v.Floor) (hm : ∀ q, (v.side q).mode = .cmdSwitching) (hstrict : strict)
    {q : Role} (hq : v.started q) {t : Tick} {kind : TickClass} {age : Option Float32}
    (ha : (v.side q).Allows strict (.tick t kind age)) : (v.act q (.tick t kind age)).Floor := by
  have hheard := h.unheard q hq
  have hrel : (v.side q).releasesAfter kind = false := by simp [Side.releasesAfter, hm q]
  rw [act_eq]
  cases hk : kind.lock with
  | true =>
    have hopen : (v.side q).locked = false :=
      (ha.2.2 hstrict hk).resolve_left (by simp [hm q])
    have hsigns : (v.side q).signs (.tick t kind age) = [.tick] := by
      simp [Side.signs, hk, hrel]
    rw [hsigns]
    exact h.tick hq hheard hopen (by simp [Side.after, Side.locksAfter, hk, hheard, hm q])
      (by simp [Side.after, Side.armsAfter, hk, hheard, hm q])
  | false =>
    have hsigns : (v.side q).signs (.tick t kind age) = [] := by simp [Side.signs, hk, hrel]
    rw [hsigns]
    exact h.keep hq hheard (by simp [Side.after, Side.locksAfter, hk])
      (by simp [Side.after, Side.armsAfter, hk]) rfl rfl

/-- A side that has to wait hands over the floor, if it has yet to do so. -/
theorem act_hold (h : v.Floor) (hm : ∀ q, (v.side q).mode = .cmdSwitching) {q : Role}
    (hq : v.started q) (t : Tick) : (v.act q (.hold t)).Floor := by
  have harm : ((v.side q).after (.hold t)).armed = false := by simp [Side.after, hm q]
  have howes : (v.side q).owesRelease = (v.side q).armed := by simp [Side.owesRelease, hm q]
  have hgiven : (((v.side q).signs (.hold t)).filterMap Sign.signal?).count .unlock =
      v.armed q := by
    rw [Side.signs, howes, armed_of_started hq]
    cases (v.side q).armed <;> rfl
  have hl : (!((v.side q).after (.hold t)).locked).toNat = v.unlocked q :=
    (unlocked_of_started hq).symm
  rw [act_eq]
  refine h.still (.inl hq) (h.unheard q hq) ?_ ?_ ?_ ?_
  · rw [Side.signs]
    split <;> rfl
  · rw [harm, hgiven, hl, floors, releases, Bool.toNat_false]
    omega
  · rw [hl]
    exact id
  · rw [harm, hgiven, Bool.toNat_false, Nat.zero_add]
    exact id

/-- What an act does to the floor, unless the side has waited for too long. -/
theorem act (h : v.Floor) (hm : ∀ q, (v.side q).mode = .cmdSwitching) (hstrict : strict)
    {q : Role} {a : Act} (hq : v.started q) (ha : (v.side q).Allows strict a)
    (hcalm : .timeout ∉ (v.side q).signs a) : (v.act q a).Floor := by
  have hheard := h.unheard q hq
  cases a with
  | tick t kind age => exact h.act_tick hm hstrict hq ha
  | hold t => exact h.act_hold hm hq t
  | resume =>
    rw [act_eq]
    exact h.keep hq hheard rfl rfl rfl rfl
  | timeOut held => exact absurd List.mem_cons_self hcalm
  | finish outcome =>
    have hσ : (v.side q).after (.finish outcome) =
        { v.side q with phase := outcome, due := true } :=
      if_neg (Bool.eq_false_iff.mp hheard)
    rw [act_eq, hσ]
    exact h.keep hq hheard rfl rfl rfl rfl

/-- Whatever happens to two peaceful sides, there is one floor. -/
theorem step (h : v.Floor) (ho : v.Orderly .cmdSwitching r True) (hs : strict)
    (he : v.Event strict True v') (hp : v'.Peaceful) : v'.Floor := by
  cases he with
  | act q a hq ha =>
    refine h.act ho.mode hs hq ha fun hmem => ?_
    have hnone := (hp q).1
    rw [timeouts, List.count_eq_zero, act_eq, signsOf_note_self] at hnone
    exact hnone (List.mem_append_right _ hmem)
  | start q sooner later hin hrun hq =>
    have hsame : (sooner ++ later).count .unlock = v.releases q := by
      simp [releases, hin, List.count_append]
    have hlocked : (!(v.side q).begun.locked).toNat = v.unlocked q := by
      rw [unlocked, if_neg hq]
      rfl
    have harmed : v.armed q = 0 := if_neg hq
    refine h.still (.inr List.mem_cons_self) rfl rfl ?_ ?_ ?_
    · rw [hsame, hlocked, floors, harmed]
      rfl
    · rw [hsame, hlocked]
      exact id
    · exact fun hne => absurd rfl hne
  | release q sooner later hin hq =>
    have hq := hq trivial
    have hone : v.releases q = (sooner ++ later).count .unlock + 1 := by
      simp [releases, hin, List.count_append]
      omega
    -- The release has found the lock closed, for there is only one floor.
    have hfull := h.one q
    rw [floors] at hfull
    refine h.still (.inl hq) (h.unheard q hq) rfl ?_ ?_ ?_
    · have harmed : (v.side q).released.armed.toNat = v.armed q := (armed_of_started hq).symm
      rw [harmed, floors]
      change 1 + _ + _ + 0 = _
      omega
    · exact fun _ => by omega
    · rw [armed_of_started hq]
      exact id
  | peerEnd q sooner later hin hq =>
    refine absurd ?_ (hp q).2
    rw [signsOf_note_self]
    exact List.mem_append_right _ List.mem_cons_self
  | lose q s sooner later hin hf => exact absurd trivial hf

end Floor

/-- Nothing that has happened is taken back. -/
theorem Event.history_prefix {strict fifo : Prop} {v v' : View} (he : v.Event strict fifo v') :
    v.history <+: v'.history := by
  cases he with
  | act | start | release | peerEnd => exact List.prefix_append ..
  | lose => exact List.prefix_refl _

/-- A view from which a peaceful one is reached is peaceful. -/
theorem Peaceful.before {strict fifo : Prop} {v v' : View} (hp : v'.Peaceful)
    (he : v.Event strict fifo v') : v.Peaceful := by
  intro q
  have hgrow : signsOf q v.history <+: signsOf q v'.history := he.history_prefix.filterMap _
  obtain ⟨ht, hend⟩ := hp q
  rw [timeouts, List.count_eq_zero] at ht ⊢
  exact ⟨fun hmem => ht (hgrow.subset hmem), fun hmem => hend (hgrow.subset hmem)⟩

end View

namespace Duet

variable {α : Type}

/-- No device has waited for too long, and none has heard that the other one has finished. -/
def IsPeaceful (d : Duet α) : Prop :=
  ∀ q, d.timeouts q = 0 ∧ (q, Sign.peerEnd) ∉ d.signs

/-- The floors of the device : its open lock, the release that it has yet to send, and those on
their way to it. -/
def floors (d : Duet α) (q : Role) : Nat :=
  (!(d.session q).exec.policy.locked).toNat + (d.session q).exec.policy.armed.toNat +
    (d.inbox q).count .unlock

/-- Which devices have made the ticks that take part in the synchronisation, in order. -/
def tickOrder (d : Duet α) : List Role :=
  Tandem.tickOrder d.signs

theorem IsPeaceful.view {d : Duet α} (hp : d.IsPeaceful) : d.view.Peaceful :=
  fun q => ⟨(hp q).1, fun hmem => (hp q).2 ((mem_signsOf q).mp hmem)⟩

/-- The releases that are on their way are messages. -/
theorem releases_view (d : Duet α) (q : Role) : d.view.releases q = (d.inbox q).count .unlock := by
  rw [View.releases, inbox_view]
  induction d.inbox q with
  | nil => rfl
  | cons m ms ih => cases m <;> simp [Message.signal?, List.filterMap_cons, ih]

/-- A device that has started has the floors of its view. -/
theorem floors_view {d : Duet α} {q : Role} (hs : d.HasStarted q) :
    d.view.floors q = d.floors q := by
  have hs : d.view.started q := hs
  rw [View.floors, View.unlocked_of_started hs, View.armed_of_started hs, releases_view]
  rfl

variable [Avatar α]

/-- Of two devices that take turns, one has the floor, as long as none waits for too long and none
hears that the other one has finished. The ticks of the two alternate, and the slave makes the
first one, so that it is never behind the master and at most one tick ahead. -/
theorem one_floor [Avatar.Steady α] {d : Duet α} (hd : d.Ready .cmdSwitching) (r : Role)
    (ms : List Move) (hms : ∀ m ∈ ms, m.inOrder) (hp : ((d.ask r).moves ms).IsPeaceful) :
    let d' := (d.ask r).moves ms
    ((∀ q, d'.HasStarted q) → d'.floors .master + d'.floors .slave = 1) ∧
    d'.tickOrder = turns d'.tickOrder.length ∧
    (d'.lockTicks .slave = d'.lockTicks .master ∨
      d'.lockTicks .slave = d'.lockTicks .master + 1) := by
  intro d'
  have hinv : d'.view.Orderly .cmdSwitching r True ∧ (d'.view.Peaceful → d'.view.Floor) :=
    view_induction (P := fun v => v.Orderly .cmdSwitching r True ∧ (v.Peaceful → v.Floor)) hd r
      (fun _ => hms) (fun v hv => ⟨.of_asked hv, fun _ => .of_asked hv⟩)
      fun v v' hv hs =>
        have he := hv.1.event hs
        ⟨hv.1.step he, fun hp => (hv.2 (hp.before he)).step hv.1 ‹_› he hp⟩
  have hfloor : d'.view.Floor := hinv.2 hp.view
  have horder : d'.tickOrder = turns d'.tickOrder.length := hfloor.order
  refine ⟨fun hs => ?_, horder, ?_⟩
  · rw [← floors_view (hs .master), ← floors_view (hs .slave)]
    exact hfloor.one .master
  · have hcount : ∀ q, d'.lockTicks q = (turns d'.tickOrder.length).count q := by
      intro q
      rw [← horder]
      exact (count_tickOrder q d'.signs).symm
    obtain ⟨hslave, hmaster⟩ := count_turns d'.tickOrder.length
    rw [hcount, hcount, hslave, hmaster]
    omega

/-- Two devices that take turns, the master with three moves and the slave with two. -/
def dialogue : Duet GridAvatar :=
  onGrid .cmdSwitching fun
    | .master => ⟨[.ofName "MOVE" ["EAST"], .ofName "MOVE" ["WEST"], .ofName "MOVE" ["EAST"]]⟩
    | .slave => ⟨[.ofName "MOVE" ["EAST"], .ofName "MOVE" ["EAST"]]⟩

/-- The master has asked for the run, the slave has made its move and released the master, and the
master has made one, and has the floor until it needs the next one. -/
def exchange : List Move :=
  [.deliver .slave 0, .deliver .master 0, .deliver .master 0, .update .master 0.5]

/-- In a dialogue of a slave and a master, each makes a tick in turn, and there is one floor at the
end. -/
theorem one_floor_exchange :
    (∀ q, ((dialogue.ask .master).moves exchange).HasStarted q) ∧
    ((dialogue.ask .master).moves exchange).tickOrder = [.slave, .master] ∧
    ((dialogue.ask .master).moves exchange).floors .master +
      ((dialogue.ask .master).moves exchange).floors .slave = 1 := by
  have hms : ∀ m ∈ exchange, m.inOrder := by
    intro m hm
    simp only [exchange, List.mem_cons, List.not_mem_nil, or_false] at hm
    obtain rfl | rfl | rfl | rfl := hm <;> trivial
  have hstarted : ∀ q, ((dialogue.ask .master).moves exchange).HasStarted q := by
    intro q
    cases q <;> decide +kernel
  obtain ⟨hone, -, -⟩ :=
    one_floor (ready_onGrid .cmdSwitching _ : dialogue.Ready _) .master exchange hms
      fun q => by cases q <;> decide +kernel
  exact ⟨hstarted, by decide +kernel, hone hstarted⟩

end Duet

end Tandem
