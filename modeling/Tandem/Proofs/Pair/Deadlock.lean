import Tandem.Proofs.Pair.Moves

/-!
# Devices that wait are released

Two devices that lock each other never wait for each other forever : if both wait with their locks
closed, something that opens one of them is on its way, and if one waits after the other has ended,
the end of the other is on its way to it (`Duet.not_stuck`). This holds however updates,
deliveries, timeouts and stopped runs follow one another, as long as messages arrive in the order
in which they were sent.

The invariant is `View.Live`. If both sides are shut, then either a release is on its way, or one
of them owes one and has yet to wait, which is when it pays. A side whose peer has ended either
knows it or is going to hear of it.
-/

namespace Tandem

/-- Only a master starts locked. -/
theorem Side.role_of_startsLocked {σ : Side} (h : σ.startsLocked = true) : σ.role = .master := by
  simp only [startsLocked, Bool.and_eq_true, decide_eq_true_eq] at h
  exact h.2

namespace View

/-- The side is locked, or will be when it starts. -/
def Shut (v : View) (q : Role) : Prop :=
  (v.side q).isRunning = true ∧ (v.side q).locked = true ∨
    ¬v.started q ∧ (v.side q).startsLocked = true

/-- The end of the other side is on its way to this one, or it knows, or has ended too. -/
def Told (v : View) (q : Role) : Prop :=
  .finish ∈ v.inbox q ∨ (v.side q).isRunning = true ∧ (v.side q).heard = true ∨
    v.started q ∧ (v.side q).isRunning = false

/-- Nobody waits for a release or an end that is not to come. -/
structure Live (v : View) : Prop where
  undue : ∀ q, (v.side q).isRunning = true → (v.side q).due = false
  free : ∀ q, (v.side q).isRunning = true → (v.side q).heard = true → (v.side q).locked = false
  paid : ∀ q, (v.side q).phase = .waitingForPeer → (v.side q).owesRelease = false
  told : ∀ q, v.started q.peer → (v.side q.peer).isRunning = false → v.Told q
  coming : (∀ q, v.Shut q) → (∃ q, .unlock ∈ v.inbox q) ∨
    ∃ q, (v.side q).isRunning = true ∧ (v.side q).owesRelease = true

namespace Live

variable {mode : SyncMode} {r : Role} {strict : Prop} {v v' : View}

/-- At the start of a run nobody waits for anything. -/
theorem of_asked (h : v.Asked mode r) : v.Live := by
  obtain ⟨σ, hσ⟩ := h.begun
  have hpeer : (v.side r.peer).isRunning ≠ true := by simp [h.idle]
  have hr : (v.side r).isRunning = true := by simp [hσ, Side.begun, Side.isRunning]
  have hs : v.started r := by simp [started, h.history]
  have hsp : ¬v.started r.peer := by simp [started, h.history, r.peer_ne]
  refine ⟨fun q hq => ?_, fun q hq hh => ?_, fun q hq => ?_, fun q hq hend => ?_, fun hall => ?_⟩
  · rcases q.eq_or_eq_peer r with rfl | rfl
    · rw [hσ]
      rfl
    · exact absurd hq hpeer
  · rcases q.eq_or_eq_peer r with rfl | rfl
    · rw [hσ] at hh
      cases hh
    · exact absurd hq hpeer
  · rcases q.eq_or_eq_peer r with rfl | rfl
    · rw [hσ] at hq
      cases hq
    · exact absurd (Side.isRunning_of_waiting hq) hpeer
  · rcases q.eq_or_eq_peer r with rfl | rfl
    · exact absurd hq hsp
    · rw [Role.peer_peer, hr] at hend
      cases hend
  -- Only a master starts locked, and there is only one.
  · have hmaster : r = .master := by
      obtain ⟨-, hl⟩ | ⟨hn, -⟩ := hall r
      · rw [← h.role r]
        rw [hσ] at hl ⊢
        exact Side.role_of_startsLocked hl
      · exact absurd hs hn
    have hpeermaster : r.peer = .master := by
      obtain ⟨hn, -⟩ | ⟨-, hl⟩ := hall r.peer
      · exact absurd hn hpeer
      · rw [← h.role r.peer]
        exact Side.role_of_startsLocked hl
    exact absurd (hpeermaster.trans hmaster.symm) r.peer_ne

section Note

variable {q : Role} {σ : Side} {signals : List Signal} {signs : List Sign}

/-- Whoever has been told of the end of the other side still is, and whoever ends tells the other
side. -/
theorem told_note (h : v.Live) (hstarted : v.started q ∨ .start ∈ signs)
    (hkeep : v.Told q →
      .finish ∈ signals ∨ σ.isRunning = true ∧ σ.heard = true ∨ σ.isRunning = false)
    (htell : σ.isRunning = false → v.started q ∧ (v.side q).isRunning = false ∨
      .finish ∈ signs.filterMap Sign.signal?) (p : Role)
    (hp : ((v.setInbox q signals).note q σ signs).started p.peer)
    (hend : (((v.setInbox q signals).note q σ signs).side p.peer).isRunning = false) :
    ((v.setInbox q signals).note q σ signs).Told p := by
  have hs : ((v.setInbox q signals).note q σ signs).started q :=
    (started_note_self ..).mpr hstarted
  rcases p.eq_or_eq_peer q with rfl | rfl
  · rw [started_note_peer] at hp
    rw [side_note_peer] at hend
    rw [Told, inbox_note_self, inbox_setInbox_self, side_note_self]
    obtain hk | hk | hk := hkeep (h.told p hp hend)
    · exact .inl hk
    · exact .inr (.inl hk)
    · exact .inr (.inr ⟨hs, hk⟩)
  · rw [Role.peer_peer, side_note_self] at hend
    rw [Told, inbox_note_peer, started_note_peer, side_note_peer]
    obtain ⟨hq, hend⟩ | hsent := htell hend
    · obtain hk | hk | hk := h.told q.peer (by rwa [Role.peer_peer]) (by rwa [Role.peer_peer])
      · refine .inl (List.mem_append_left _ ?_)
        rwa [inbox_setInbox_peer]
      · exact .inr (.inl hk)
      · exact .inr (.inr hk)
    · exact .inl (List.mem_append_right _ hsent)

/-- If both sides are shut now, then either this one has sent a release or owes one, or both were
shut before, and what freed one of them then still does. -/
theorem coming_note (h : v.Live) (hstarted : v.started q ∨ .start ∈ signs)
    (coming : σ.isRunning = true → σ.locked = true →
      .unlock ∈ signs.filterMap Sign.signal? ∨ σ.owesRelease = true ∨
        v.Shut q ∧ (.unlock ∈ v.inbox q → .unlock ∈ signals) ∧
          ((v.side q).isRunning = true → (v.side q).owesRelease = false))
    (hall : ∀ p, ((v.setInbox q signals).note q σ signs).Shut p) :
    (∃ p, .unlock ∈ ((v.setInbox q signals).note q σ signs).inbox p) ∨
      ∃ p, (((v.setInbox q signals).note q σ signs).side p).isRunning = true ∧
        (((v.setInbox q signals).note q σ signs).side p).owesRelease = true := by
  have hs : ((v.setInbox q signals).note q σ signs).started q :=
    (started_note_self ..).mpr hstarted
  have hshut : σ.isRunning = true ∧ σ.locked = true := by
    have hq := hall q
    rw [Shut, side_note_self] at hq
    exact hq.resolve_right fun hn => hn.1 hs
  obtain hsent | howes | ⟨hq, hkept, hunpaid⟩ := coming hshut.1 hshut.2
  · refine .inl ⟨q.peer, ?_⟩
    rw [inbox_note_peer]
    exact List.mem_append_right _ hsent
  · refine .inr ⟨q, ?_⟩
    rw [side_note_self]
    exact ⟨hshut.1, howes⟩
  · have hpeer : v.Shut q.peer := by
      have hp := hall q.peer
      rwa [Shut, side_note_peer, started_note_peer] at hp
    have hbefore : ∀ p, v.Shut p := by
      intro p
      rcases p.eq_or_eq_peer q with rfl | rfl
      · exact hq
      · exact hpeer
    obtain ⟨p, hp⟩ | ⟨p, hp⟩ := h.coming hbefore
    · refine .inl ⟨p, ?_⟩
      rcases p.eq_or_eq_peer q with rfl | rfl
      · rw [inbox_note_self, inbox_setInbox_self]
        exact hkept hp
      · rw [inbox_note_peer, inbox_setInbox_peer]
        exact List.mem_append_left _ hp
    · refine .inr ⟨p, ?_⟩
      rcases p.eq_or_eq_peer q with rfl | rfl
      · rw [hunpaid hp.1] at hp
        cases hp.2
      · rw [side_note_peer]
        exact hp

/-- A side has taken some signals off its inbox and become another. -/
theorem note (h : v.Live) (hstarted : v.started q ∨ .start ∈ signs)
    (undue : σ.isRunning = true → σ.due = false)
    (free : σ.isRunning = true → σ.heard = true → σ.locked = false)
    (paid : σ.phase = .waitingForPeer → σ.owesRelease = false)
    (hkeep : v.Told q →
      .finish ∈ signals ∨ σ.isRunning = true ∧ σ.heard = true ∨ σ.isRunning = false)
    (htell : σ.isRunning = false → v.started q ∧ (v.side q).isRunning = false ∨
      .finish ∈ signs.filterMap Sign.signal?)
    (coming : σ.isRunning = true → σ.locked = true →
      .unlock ∈ signs.filterMap Sign.signal? ∨ σ.owesRelease = true ∨
        v.Shut q ∧ (.unlock ∈ v.inbox q → .unlock ∈ signals) ∧
          ((v.side q).isRunning = true → (v.side q).owesRelease = false)) :
    ((v.setInbox q signals).note q σ signs).Live where
  undue p := by
    rcases p.eq_or_eq_peer q with rfl | rfl
    · rwa [side_note_self]
    · rw [side_note_peer]
      exact h.undue _
  free p := by
    rcases p.eq_or_eq_peer q with rfl | rfl
    · rwa [side_note_self]
    · rw [side_note_peer]
      exact h.free _
  paid p := by
    rcases p.eq_or_eq_peer q with rfl | rfl
    · rwa [side_note_self]
    · rw [side_note_peer]
      exact h.paid _
  told := h.told_note hstarted hkeep htell
  coming := h.coming_note hstarted coming

end Note

/-! ## What a side does by itself -/

section Act

variable {q : Role}

/-- While its run goes on and it knows what it knew, a side is told of the end of the other one. -/
theorem told_of_running (hr : (v.side q).isRunning = true) {σ : Side} (hσ : σ.isRunning = true)
    (hh : σ.heard = (v.side q).heard) (ht : v.Told q) :
    .finish ∈ v.inbox q ∨ σ.isRunning = true ∧ σ.heard = true ∨ σ.isRunning = false := by
  obtain ht | ht | ht := ht
  · exact .inl ht
  · exact .inr (.inl ⟨hσ, hh.trans ht.2⟩)
  · cases hr.symm.trans ht.2

/-- A tick that closes the lock sends a release, or one is owed for it. -/
theorem act_tick (h : v.Live) (hq : v.started q) (hp : (v.side q).phase = .running) (t : Tick)
    (kind : TickClass) (age : Option Float32) : (v.act q (.tick t kind age)).Live := by
  have hr : (v.side q).isRunning = true := Side.isRunning_of_running hp
  rw [act_eq]
  refine h.note (.inl hq) (fun _ => h.undue q hr) (fun _ hh => ?_) (fun hw => ?_)
    (told_of_running hr hr rfl) (fun hn => ?_) fun _ hl => ?_
  · have hh : (v.side q).heard = true := hh
    simp [Side.after, Side.locksAfter, hh, h.free q hr hh]
  · cases hp.symm.trans hw
  · cases hr.symm.trans hn
  · cases hk : (v.side q).locksAfter kind with
    | true =>
      obtain hrel | ⟨harm, hcmd⟩ := Side.releasesAfter_or_armsAfter hk
      · exact .inl (by simp [Side.signs, hrel, Sign.signal?])
      · exact .inr (.inl (by simp [Side.after, Side.owesRelease, harm, hcmd]))
    | false =>
      refine .inr ?_
      cases ho : (v.side q).owesRelease with
      | true => exact .inl (by simp_all [Side.after, Side.owesRelease])
      | false => exact .inr ⟨.inl ⟨hr, by simpa [Side.after, hk] using hl⟩, id, fun _ => rfl⟩

/-- A tick that is held back pays what is owed. -/
theorem act_hold (h : v.Live) (hq : v.started q) (hp : (v.side q).phase = .running) (t : Tick) :
    (v.act q (.hold t)).Live := by
  have hr : (v.side q).isRunning = true := Side.isRunning_of_running hp
  rw [act_eq]
  refine h.note (.inl hq) (fun _ => h.undue q hr) (fun _ => h.free q hr) (fun _ => ?_)
    (told_of_running hr rfl rfl) (fun hn => ?_) fun _ hl => ?_
  · cases hmode : (v.side q).mode <;> simp [Side.after, Side.owesRelease, hmode]
  · cases hn
  · cases ho : (v.side q).owesRelease with
    | true => exact .inl (by simp [Side.signs, ho, Sign.signal?])
    | false => exact .inr (.inr ⟨.inl ⟨hr, hl⟩, id, fun _ => rfl⟩)

/-- A side that goes on with its lock open waits for nothing. -/
theorem act_of_open (h : v.Live) (hq : v.started q) (hw : (v.side q).phase = .waitingForPeer)
    {a : Act} (hp : ((v.side q).after a).phase = .running)
    (hl : ((v.side q).after a).locked = false)
    (hdue : ((v.side q).after a).due = (v.side q).due)
    (hh : ((v.side q).after a).heard = (v.side q).heard) : (v.act q a).Live := by
  have hr : (v.side q).isRunning = true := Side.isRunning_of_waiting hw
  have hgoes : ((v.side q).after a).isRunning = true := Side.isRunning_of_running hp
  rw [act_eq]
  refine h.note (.inl hq) (fun _ => hdue.trans (h.undue q hr)) (fun _ _ => hl) (fun hw => ?_)
    (told_of_running hr hgoes hh) (fun hn => ?_) fun _ hl' => ?_
  · cases hp.symm.trans hw
  · cases hgoes.symm.trans hn
  · cases hl.symm.trans hl'

/-- A side that ends its run tells the other one. -/
theorem act_finish (h : v.Live) (hq : v.started q) {outcome : Phase}
    (ho : outcome = .completed ∨ outcome = .interrupted) :
    (v.act q (.finish outcome)).Live := by
  have hend : ((v.side q).after (.finish outcome)).isRunning = false := Side.isRunning_ended ho
  rw [act_eq]
  refine h.note (.inl hq) (fun hn => ?_) (fun hn => ?_) (fun hw => ?_)
    (fun _ => .inr (.inr hend)) (fun _ => .inr (by simp [Side.signs, Sign.signal?])) fun hn => ?_
  · cases hend.symm.trans hn
  · cases hend.symm.trans hn
  · cases hend.symm.trans (Side.isRunning_of_waiting hw)
  · cases hend.symm.trans hn

/-- Whatever a side does by itself, nobody waits for what is not to come. -/
theorem act (h : v.Live) {a : Act} (hq : v.started q) (ha : (v.side q).Allows strict a) :
    (v.act q a).Live := by
  cases a with
  | tick t kind age => exact h.act_tick hq ha.1 t kind age
  | hold t => exact h.act_hold hq ha.1 t
  | resume => exact h.act_of_open hq ha.1 rfl ha.2 rfl rfl
  | timeOut held => exact h.act_of_open hq ha.1 rfl rfl rfl rfl
  | finish outcome => exact h.act_finish hq (ha.2.imp And.left id)

end Act

/-! ## What happens to the two sides -/

/-- Whatever happens next, nobody waits for what is not to come. -/
theorem step (h : v.Live) (ho : v.Orderly mode r True) (he : v.Event strict True v') :
    v'.Live := by
  cases he with
  | act q a hq ha => exact h.act hq ha
  | start q sooner later hin hrun hq =>
    have hidle := ho.asleep q hq
    refine h.note (.inr List.mem_cons_self) (fun _ => rfl) nofun nofun (fun ht => ?_) nofun
      fun _ hl => .inr (.inr ⟨.inr ⟨hq, hl⟩, fun hu => ?_, fun hn => ?_⟩)
    · obtain ht | ht | ht := ht
      · exact .inl (by simpa [hin] using ht)
      · cases hidle.symm.trans ht.1
      · exact absurd ht.1 hq
    · simpa [hin] using hu
    · cases hidle.symm.trans hn
  | release q sooner later hin hq =>
    refine h.note (.inl (hq trivial)) (h.undue q) (fun _ _ => rfl) (h.paid q) (fun ht => ?_)
      (fun hn => .inl ⟨hq trivial, hn⟩) nofun
    exact ht.imp (fun ht => by simpa [hin] using ht) (Or.imp_right And.right)
  | peerEnd q sooner later hin hq =>
    cases hd : (v.side q).due with
    | true =>
      have hσ : (v.side q).peerEnded = (v.side q).cleaned := if_pos hd
      have hidle : (v.side q).isRunning = false := by
        by_contra hr
        rw [Bool.not_eq_false] at hr
        cases hd.symm.trans (h.undue q hr)
      rw [hσ]
      exact h.note (.inl (hq trivial)) nofun nofun nofun (fun _ => .inr (.inr rfl))
        (fun _ => .inl ⟨hq trivial, hidle⟩) nofun
    | false =>
      have hσ : (v.side q).peerEnded = { v.side q with locked := false, heard := true } :=
        if_neg (Bool.eq_false_iff.mp hd)
      rw [hσ]
      refine h.note (.inl (hq trivial)) (fun _ => hd) (fun _ _ => rfl) (h.paid q) (fun _ => ?_)
        (fun hn => .inl ⟨hq trivial, hn⟩) nofun
      cases hr : (v.side q).isRunning with
      | true => exact .inr (.inl ⟨hr, rfl⟩)
      | false => exact .inr (.inr hr)
  | lose q s sooner later hin hf => exact absurd trivial hf

/-- A side that waits with its lock closed. -/
theorem not_abandoned (h : v.Live) {q : Role} (hw : (v.side q).phase = .waitingForPeer)
    (hl : (v.side q).locked = true) (hs : v.started q.peer)
    (hend : (v.side q.peer).isRunning = false) : .finish ∈ v.inbox q := by
  have hr : (v.side q).isRunning = true := Side.isRunning_of_waiting hw
  obtain ht | ⟨-, hh⟩ | ⟨-, hn⟩ := h.told q hs hend
  · exact ht
  · cases hl.symm.trans (h.free q hr hh)
  · cases hr.symm.trans hn

/-- If both sides wait with their locks closed, a release is on its way to one of them. -/
theorem release_coming (h : v.Live) (hw : ∀ q, (v.side q).phase = .waitingForPeer)
    (hl : ∀ q, (v.side q).locked = true) : ∃ q, .unlock ∈ v.inbox q := by
  obtain hsent | ⟨q, -, howes⟩ :=
    h.coming fun q => .inl ⟨Side.isRunning_of_waiting (hw q), hl q⟩
  · exact hsent
  · cases howes.symm.trans (h.paid q (hw q))

end Live

end View

namespace Duet

variable {α : Type}

/-- The device waits for the other one, and its lock is closed. -/
def IsHeld (d : Duet α) (q : Role) : Prop :=
  (d.session q).exec.phase = .waitingForPeer ∧ (d.session q).exec.policy.locked = true

instance (d : Duet α) (q : Role) : Decidable (d.IsHeld q) :=
  inferInstanceAs (Decidable (_ ∧ _))

/-- The device has started a run, which has ended. -/
def HasEnded (d : Duet α) (q : Role) : Prop :=
  d.HasStarted q ∧ (d.session q).isRunning = false

/-- A signal that is on its way is carried by a message. -/
theorem mem_inbox_of_view {d : Duet α} {q : Role} {s : Signal} (h : s ∈ d.view.inbox q) :
    ∃ m ∈ d.inbox q, m.signal? = some s := by
  simpa [inbox_view] using h

variable [Avatar α]

/-- A run asked for by one of two idle devices does not come to a standstill that only a timeout
can end. Devices that hold each other have a message on its way that frees one of them, and a
device that is held after the other one has ended is about to be told so. -/
theorem not_stuck {mode : SyncMode} {d : Duet α} (hd : d.Ready mode) (r : Role) (ms : List Move)
    (hms : ∀ m ∈ ms, m.inOrder) :
    let d' := (d.ask r).moves ms
    ¬((∀ q, d'.IsHeld q) ∧ ∀ q, .unlock ∉ d'.inbox q ∧ .finish ∉ d'.inbox q) ∧
    ∀ q, ¬(d'.IsHeld q ∧ d'.HasEnded q.peer ∧ .finish ∉ d'.inbox q) := by
  intro d'
  have hinv : d'.view.Orderly mode r True ∧ d'.view.Live :=
    view_induction (P := fun v => v.Orderly mode r True ∧ v.Live) hd r (fun _ => hms)
      (fun v hv => ⟨.of_asked hv, .of_asked hv⟩)
      fun v v' hv hs => ⟨hv.1.step (hv.1.event hs), hv.2.step hv.1 (hv.1.event hs)⟩
  obtain ⟨-, hlive⟩ := hinv
  refine ⟨fun ⟨hheld, hnone⟩ => ?_, fun q ⟨hheld, hend, hnone⟩ => ?_⟩
  · obtain ⟨q, hq⟩ := hlive.release_coming (fun q => (hheld q).1) fun q => (hheld q).2
    obtain ⟨m, hm, hs⟩ := mem_inbox_of_view hq
    cases m with
    | unlock => exact (hnone q).1 hm
    | command | run | finish => cases hs
  · have hq := hlive.not_abandoned hheld.1 hheld.2 hend.1 hend.2
    obtain ⟨m, hm, hs⟩ := mem_inbox_of_view hq
    cases m with
    | finish => exact hnone hm
    | command | run | unlock => cases hs

/-- Two devices that take turns, with two moves each. -/
def twoTurns : Duet GridAvatar :=
  onGrid .cmdSwitching fun _ => ⟨[.ofName "MOVE" ["EAST"], .ofName "MOVE" ["EAST"]]⟩

/-- The slave has made its first move and handed over the turn, and the master has yet to hear of
it. -/
theorem not_stuck_while_both_wait :
    (∀ q, ((twoTurns.ask .master).moves [.deliver .slave 0]).IsHeld q) ∧
    ∃ q, .unlock ∈ ((twoTurns.ask .master).moves [.deliver .slave 0]).inbox q ∨
      .finish ∈ ((twoTurns.ask .master).moves [.deliver .slave 0]).inbox q := by
  have hms : ∀ m ∈ [Move.deliver .slave 0], m.inOrder := by
    intro m hm
    rw [List.mem_singleton.mp hm]
    rfl
  have hheld : ∀ q, ((twoTurns.ask .master).moves [.deliver .slave 0]).IsHeld q := by
    intro q
    cases q <;> decide +kernel
  obtain ⟨hfree, -⟩ := not_stuck (ready_onGrid .cmdSwitching _ : twoTurns.Ready _) .master _ hms
  refine ⟨hheld, ?_⟩
  by_contra hnone
  refine hfree ⟨hheld, fun q => ?_⟩
  rw [not_exists] at hnone
  exact not_or.mp (hnone q)

end Duet

end Tandem
