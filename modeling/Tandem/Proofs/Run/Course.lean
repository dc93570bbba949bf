import Tandem.Proofs.Run.Side

/-!
# Operations as courses of acts

An operation on an executor takes its side through a course of acts, and everything it does is
what these acts show (`Turn.Goes`) : `Turn.goes_advance` for an advance, `Turn.goes_update` for
the passing of time, `Turn.goes_run` for a run from its beginning. What comes from the other
device changes the side at once, and shows what came (`Turn.seen_afterRelease`).

A tick that takes part in the synchronisation is made by an open side only, as long as the avatar
does not change its mind about which commands do (`Avatar.Steady`). This is what `Turn.Sound`
keeps between the gate of a tick and the tick.
-/

namespace Tandem

namespace Turn

variable {α : Type}

/-- The side of the device whose executor is at work. -/
def side (t : Turn α) : Side := t.exec.core.side t.script

theorem side_eq {t t' : Turn α} {c : Core} (hc : t'.exec.core = c)
    (hs : t'.script.clearRunning = t.script.clearRunning) : t'.side = c.side t.script := by
  rw [side, hc, c.side_congr hs]

variable [Avatar α]

/-- What the executor waits for fits its phase, and a tick that was let through, or will be after
some time, is one that the side may make. -/
structure Sound (t : Turn α) : Prop where
  waits : t.exec.phase = .waitingForPeer → t.exec.pending = .peer
  runs : t.exec.phase = .running → t.exec.pending ≠ .peer
  free : Avatar.Steady α → t.exec.phase = .running → t.exec.pending ≠ .nothing →
    ∀ tick, t.side.left.head? = some tick → Avatar.isLock t.exec.own tick.name = true →
      t.side.isOpen

/-- The turn goes from one state to another through acts, of which everything is seen. -/
structure Goes (t t' : Turn α) (acts : List (Side × Act)) : Prop where
  course : Side.Course (Avatar.Steady α) t.side acts t'.side
  seen : ∀ {β : Type} (w : Watch β), w.TakesCommandsAlike →
    t'.seen w = t.seen w ++ w.ofCourse acts
  sound : t'.Sound

namespace Goes

/-- Nothing is done. -/
theorem still {t t' : Turn α} (hσ : t'.side = t.side)
    (hw : ∀ {β : Type} (w : Watch β), t'.seen w = t.seen w) (h : t'.Sound) : Goes t t' [] where
  course := hσ ▸ .stop _
  seen w _ := by rw [hw w, Watch.ofCourse, List.flatMap_nil, List.append_nil]
  sound := h

/-- One act is done. -/
theorem one {t t' : Turn α} {a : Act} (ha : t.side.Allows (Avatar.Steady α) a)
    (hσ : t'.side = t.side.after a)
    (hw : ∀ {β : Type} (w : Watch β), w.TakesCommandsAlike →
      t'.seen w = t.seen w ++ w.ofAct t.side a) (h : t'.Sound) : Goes t t' [(t.side, a)] where
  course := hσ ▸ .one ha
  seen w hc := by rw [hw w hc, Watch.ofCourse, List.flatMap_singleton]
  sound := h

/-- Two courses, one after the other, are one. -/
theorem trans {t t' t'' : Turn α} {acts acts' : List (Side × Act)} (h : Goes t t' acts)
    (h' : Goes t' t'' acts') : Goes t t'' (acts ++ acts') where
  course := h.course.append h'.course
  seen w hc := by
    rw [h'.seen w hc, h.seen w hc, Watch.ofCourse, Watch.ofCourse, Watch.ofCourse,
      List.flatMap_append, List.append_assoc]
  sound := h'.sound

end Goes

/-! ## The steps of an advance -/

/-- A turn that is not in a run is sound. -/
theorem Sound.of_not_running {t : Turn α} (h : t.side.isRunning = false) : t.Sound := by
  have h : ¬t.exec.phase = .running ∧ ¬t.exec.phase = .waitingForPeer := by
    rw [Side.isRunning, Bool.or_eq_false_iff, decide_eq_false_iff_not, decide_eq_false_iff_not] at h
    exact h
  exact ⟨fun hp => absurd hp h.2, fun hp => absurd hp h.1, fun _ hp => absurd hp h.1⟩

/-- A turn that runs and waits for nothing is sound. -/
theorem Sound.of_nothing {t : Turn α} (hp : t.exec.phase = .running)
    (hn : t.exec.pending = .nothing) : t.Sound where
  waits h := by cases hp.symm.trans h
  runs _ h := by cases hn.symm.trans h
  free _ _ h := absurd hn h

/-- A turn that waits for the other device is sound. -/
theorem Sound.of_waiting {t : Turn α} (hp : t.exec.phase = .waitingForPeer)
    (hn : t.exec.pending = .peer) : t.Sound where
  waits _ := hn
  runs h := by cases hp.symm.trans h
  free _ h := by cases hp.symm.trans h

/-- A turn that runs is sound if its side may make its next tick. -/
theorem Sound.of_free {t : Turn α} (hp : t.exec.phase = .running) (hn : t.exec.pending ≠ .peer)
    (hf : Avatar.Steady α → ∀ tick, t.side.left.head? = some tick →
      Avatar.isLock t.exec.own tick.name = true → t.side.isOpen) : t.Sound where
  waits h := by cases hp.symm.trans h
  runs _ := hn
  free hα _ _ := hf hα

/-- To end a run is an act. -/
theorem goes_finish {t : Turn α} {outcome : Phase} (hr : t.side.isRunning = true)
    (ho : outcome = .completed ∧ t.side.left = [] ∨ outcome = .interrupted) :
    Goes t (t.finish outcome) [(t.side, .finish outcome)] := by
  have hσ : (t.finish outcome).side = t.side.after (.finish outcome) := by
    rw [side_eq (t.core_finish outcome) (t.script_finish outcome), Core.side_ended]
    rfl
  refine .one ⟨hr, ho⟩ hσ (fun w _ => t.seen_finish w outcome) (.of_not_running ?_)
  rw [hσ]
  exact Side.isRunning_ended (ho.imp And.left id)

omit [Avatar α] in
/-- The walk moves up to its next tick, and nothing changes for the side. -/
theorem side_moveTo {t : Turn α} {c : Cursor} {tick : Tick}
    (h : t.exec.cursor.next? t.exec.waitRule t.script = some (c, tick)) :
    (t.moveTo c).side = t.side ∧
      ∃ rest, t.side.left = tick :: rest := by
  obtain ⟨hsame, hleft⟩ := Cursor.remaining_of_next?_eq_some h
  exact ⟨congrArg (fun left => { t.side with left := left }) hsame, _, hleft⟩

/-- A tick takes the side to what the act of it does. -/
theorem side_makeTick {t : Turn α} {c : Cursor} {tick : Tick}
    (h : t.exec.cursor.next? t.exec.waitRule t.script = some (c, tick)) :
    ((t.moveTo c).makeTick tick).side =
      t.side.after (.tick tick (t.tickClass tick) t.exec.age) := by
  rw [side_eq ((t.moveTo c).core_makeTick tick) ((t.moveTo c).script_makeTick tick)]
  exact Core.side_ticked t.exec.core t.script h (t.tickClass tick) t.exec.age

/-- To make a tick is an act, if the side is open for it. -/
theorem goes_makeTick {t : Turn α} {c : Cursor} {tick : Tick}
    (h : t.exec.cursor.next? t.exec.waitRule t.script = some (c, tick))
    (hp : t.exec.phase = .running)
    (hf : Avatar.Steady α → (t.tickClass tick).lock = true → t.side.isOpen) :
    Goes t ((t.moveTo c).makeTick tick)
      [(t.side, .tick tick (t.tickClass tick) t.exec.age)] := by
  obtain ⟨-, rest, hrest⟩ := side_moveTo h
  have hc := (t.moveTo c).core_makeTick tick
  refine .one ⟨hp, by rw [hrest]; rfl, hf⟩ (side_makeTick h) (fun w hw => ?_) ?_
  · exact (t.moveTo c).seen_makeTick w tick hw
  · exact .of_nothing ((congrArg Core.phase hc).trans hp) (congrArg Core.pending hc)

/-- Either the next tick is let through, and the side may make it, or the advance stops in front
of it. -/
theorem goes_passGate {t : Turn α} {c : Cursor} {tick : Tick} (hs : t.Sound)
    (hp : t.exec.phase = .running)
    (h : t.exec.cursor.next? t.exec.waitRule t.script = some (c, tick)) :
    ((t.moveTo c).passGate tick = (t.moveTo c, true) ∧
      (Avatar.Steady α → (t.tickClass tick).lock = true → t.side.isOpen)) ∨
    ∃ t' acts, (t.moveTo c).passGate tick = (t', false) ∧ Goes t t' acts := by
  obtain ⟨hσ, rest, hrest⟩ := side_moveTo h
  obtain ⟨hg, hfree⟩ | ⟨delay, hg, -, hopen⟩ | ⟨t', hg, hshut, hcore, hscript, hseen⟩ :=
    (t.moveTo c).passGate_cases tick
  · refine Or.inl ⟨hg, fun hα hl => ?_⟩
    rcases hfree with hready | hopen
    · have hn : t.exec.pending ≠ .nothing := by rw [show t.exec.pending = .ready from hready]; nofun
      exact hs.free hα hp hn tick (by rw [hrest]; rfl) hl
    · exact hopen hl
  · refine Or.inr ⟨_, [], hg, .still hσ (fun _ => rfl) (.of_free hp nofun fun _ other ho hl => ?_)⟩
    have hother : t.side.left.head? = some other := by
      rw [← hσ]
      exact ho
    obtain rfl : tick = other := by
      rw [hrest] at hother
      exact Option.some.inj hother
    exact hopen hl
  · have hside : t'.side = t.side.after (.hold tick) := by
      rw [side_eq hcore (congrArg Script.clearRunning hscript), Core.side_heldBack _ _ tick]
      exact congrArg (Side.after · (.hold tick)) hσ
    exact Or.inr ⟨t', _, hg, .one (a := .hold tick) ⟨hp, hshut⟩ hside (fun w _ => hseen w)
      (.of_waiting (congrArg Core.phase hcore) (congrArg Core.pending hcore))⟩

/-- Ticks that are made one after the other are a course of acts. -/
theorem goes_advanceBy : ∀ (n : Nat) (t : Turn α), t.Sound → t.exec.phase = .running →
    ∃ acts, Goes t (advanceBy n t) acts
  | 0, t, hs, _ => ⟨[], .still rfl (fun _ => rfl) hs⟩
  | n + 1, t, hs, hp => by
    have hr : t.side.isRunning = true := Side.isRunning_of_running hp
    unfold advanceBy
    split
    · exact ⟨_, goes_finish hr (.inr rfl)⟩
    · cases hn : t.exec.cursor.next? t.exec.waitRule t.script with
      | none =>
        exact ⟨_, goes_finish hr (.inl ⟨rfl, Cursor.remaining_of_next?_eq_none hn⟩)⟩
      | some found =>
        obtain ⟨c, tick⟩ := found
        dsimp only
        obtain ⟨hg, hfree⟩ | ⟨t', acts, hg, hgoes⟩ := goes_passGate hs hp hn
        · rw [hg]
          have hm := goes_makeTick hn hp hfree
          obtain ⟨acts, hrun⟩ := goes_advanceBy n _ hm.sound
            ((congrArg Core.phase (core_makeTick _ tick)).trans hp)
          exact ⟨_, hm.trans hrun⟩
        · rw [hg]
          exact ⟨acts, hgoes⟩

theorem goes_advance {t : Turn α} (hs : t.Sound) (hp : t.exec.phase = .running) :
    ∃ acts, Goes t t.advance acts :=
  goes_advanceBy _ t hs hp

/-! ## Time -/

/-- What a run waits for tells whether it runs or waits for the other device. -/
theorem Sound.phase {t : Turn α} (hs : t.Sound) (hr : t.side.isRunning = true) :
    t.exec.phase = if t.exec.pending = .peer then .waitingForPeer else .running := by
  have hr : t.exec.phase = .running ∨ t.exec.phase = .waitingForPeer := by
    rw [Side.isRunning, Bool.or_eq_true, decide_eq_true_iff, decide_eq_true_iff] at hr
    exact hr
  split
  · next h => exact hr.resolve_left fun hp => hs.runs hp h
  · next h => exact hr.resolve_right fun hp => h (hs.waits hp)

/-- A tick that the run was to wait some time for is one that it may make. -/
theorem Sound.pass {t t' : Turn α} (hs : t.Sound) (hp : t.exec.phase = .running)
    (hn : t.exec.pending ≠ .nothing) (hσ : t'.side = t.side) (ho : t'.exec.own = t.exec.own)
    (hn' : t'.exec.pending ≠ .peer) : t'.Sound := by
  have hp' : t'.exec.phase = .running := (congrArg Side.phase hσ).trans hp
  refine .of_free hp' hn' fun hα => ?_
  rw [hσ, ho]
  exact hs.free hα hp hn

/-- Time has passed for what the next tick waits for. The run goes on if it does not wait for the
other device. -/
theorem goes_passTime {t : Turn α} (hs : t.Sound) (hr : t.side.isRunning = true) (dt : Float32) :
    ∃ acts, Goes t (t.passTime dt).1 acts ∧
      ((t.passTime dt).2 = true → (t.passTime dt).1.exec.phase = .running) := by
  have hphase := hs.phase hr
  unfold passTime
  cases hn : t.exec.pending with
  | pacing remaining =>
    have hp : t.exec.phase = .running := by rw [hphase, hn]; rfl
    dsimp only
    split
    · exact ⟨[], .still rfl (fun _ => rfl) (hs.pass hp (by rw [hn]; nofun) rfl rfl nofun), nofun⟩
    · exact ⟨[], .still rfl (fun _ => rfl) (hs.pass hp (by rw [hn]; nofun) rfl rfl nofun),
        fun _ => hp⟩
  | peer =>
    have hp : t.exec.phase = .waitingForPeer := by rw [hphase, hn]; rfl
    dsimp only
    obtain ⟨hl, hw⟩ | ⟨hl, held, hw⟩ | ⟨hl, held, hw⟩ := t.exec.policy.waitFor_cases dt
    · rw [hw]
      exact ⟨_, .one (a := .resume) ⟨hp, hl⟩ rfl (fun _ _ => (List.append_nil _).symm)
        (.of_free rfl nofun fun _ _ _ _ => .inr hl), fun _ => rfl⟩
    · rw [hw]
      exact ⟨_, .one (a := .timeOut held) ⟨hp, hl⟩ rfl
        (fun w _ => (t.setPolicy _).seen_record w _)
        (.of_free rfl nofun fun _ _ _ _ => .inr rfl), fun _ => rfl⟩
    · rw [hw]
      exact ⟨[], .still rfl (fun _ => rfl) (.of_waiting hp hn), nofun⟩
  | nothing => exact ⟨[], .still rfl (fun _ => rfl) hs, fun _ => by rw [hphase, hn]; rfl⟩
  | ready => exact ⟨[], .still rfl (fun _ => rfl) hs, fun _ => by rw [hphase, hn]; rfl⟩

theorem goes_update {t : Turn α} (hs : t.Sound) (dt : Float32) :
    ∃ acts, Goes t (t.update dt) acts := by
  unfold update
  split
  · exact ⟨[], .still rfl (fun _ => rfl) hs⟩
  · next hr =>
    have hr : t.side.isRunning = true := by
      show t.exec.isRunning = true
      simpa using hr
    have hs' : t.nextUpdate.Sound := ⟨hs.waits, hs.runs, hs.free⟩
    have hn : Goes t t.nextUpdate [] := .still rfl (fun _ => rfl) hs'
    dsimp only
    split
    · exact ⟨_, hn.trans (goes_finish hr (.inr rfl))⟩
    · have he : Goes t (t.nextUpdate.mapExec fun e => { e with age := e.age.map (· + dt) }) [] :=
        .still rfl (fun _ => rfl) ⟨hs.waits, hs.runs, hs.free⟩
      obtain ⟨acts, ht, hgo⟩ := goes_passTime he.sound hr dt
      split
      · next t' h =>
        rw [h] at ht hgo
        obtain ⟨acts', ha⟩ := goes_advance ht.sound (hgo rfl)
        exact ⟨_, (he.trans ht).trans ha⟩
      · next t' h =>
        rw [h] at ht
        exact ⟨_, he.trans ht⟩

/-! ## Starting and stopping -/

theorem goes_interrupt {t : Turn α} (hs : t.Sound) : ∃ acts, Goes t t.interrupt acts := by
  unfold interrupt
  split
  · next hr => exact ⟨_, goes_finish hr (.inr rfl)⟩
  · exact ⟨[], .still rfl (fun _ => rfl) hs⟩

omit [Avatar α] in
/-- A run that begins is one of its side. -/
theorem side_begin (t : Turn α) : t.begin.side = t.side.begun := by
  rw [side_eq t.core_begin t.script_begin, Core.side_begun]
  rfl

/-- A run begins soundly. -/
theorem sound_begin (t : Turn α) : t.begin.Sound :=
  .of_nothing (congrArg Core.phase t.core_begin) (congrArg Core.pending t.core_begin)

/-- A run that is started begins, and goes on as far as it can. -/
theorem goes_run {t : Turn α} (hr : t.side.isRunning = false) :
    ∃ acts, t.run.2 = true ∧ Goes t.begin t.run.1 acts := by
  obtain ⟨acts, h⟩ := goes_advance t.sound_begin (congrArg Core.phase t.core_begin)
  have hrun : t.run = (t.begin.advance, true) := by
    rw [run, show t.exec.isRunning = false from hr]
    rfl
  exact ⟨acts, by rw [hrun], by rw [hrun]; exact h⟩

/-! ## What comes from the other device -/

omit [Avatar α] in
/-- Of a release, its event is seen. -/
theorem seen_afterRelease {β : Type} (t : Turn α) (w : Watch β) :
    t.afterRelease.seen w = t.seen w ++ w.ofEvent .unlockReceived :=
  t.seen_record w _

/-- A side that is released may make its tick. -/
theorem sound_afterRelease {t : Turn α} (hs : t.Sound) : t.afterRelease.Sound :=
  ⟨hs.waits, hs.runs, fun _ _ _ _ _ _ => .inr rfl⟩

omit [Avatar α] in
/-- The end of the other device changes the side at once. -/
theorem side_afterPeerEnd (t : Turn α) : t.afterPeerEnd.side = t.side.peerEnded := by
  unfold afterPeerEnd Side.peerEnded
  dsimp only
  split
  · next h =>
    rw [if_pos (by exact h), side_eq (core_cleanup _) (script_cleanup _), Core.side_cleaned]
    rfl
  · next h =>
    rw [if_neg (by exact h)]
    rfl

omit [Avatar α] in
/-- Of the end of the other device, its event is seen, and the cleanup if one is due. -/
theorem seen_afterPeerEnd {β : Type} (t : Turn α) (w : Watch β) :
    t.afterPeerEnd.seen w = t.seen w ++ (w.ofEvent .peerFinished ++
      if t.side.due then w.ofCleanup else []) := by
  unfold afterPeerEnd
  dsimp only
  split
  · next h =>
    rw [if_pos (by exact h), seen_cleanup, ← List.append_assoc]
    exact congrArg (· ++ _) (t.seen_record w _)
  · next h =>
    rw [if_neg (by exact h), List.append_nil]
    exact t.seen_record w _

theorem sound_afterPeerEnd {t : Turn α} (hs : t.Sound) : t.afterPeerEnd.Sound := by
  by_cases hd : t.side.due = true
  · refine .of_not_running ?_
    rw [side_afterPeerEnd, Side.peerEnded, if_pos hd]
    rfl
  · have h : t.afterPeerEnd = (t.record .peerFinished).setPolicy t.exec.policy.afterPeerEnd := by
      rw [afterPeerEnd]
      exact if_neg hd
    rw [h]
    exact ⟨hs.waits, hs.runs, fun _ _ _ _ _ _ => .inr rfl⟩

/-- A command that is carried out does not change the side. -/
theorem side_dispatch (t : Turn α) (name : String) (args : List String) (remote : Bool) :
    (t.dispatch name args remote).1.side = t.side := by
  rw [side, core_dispatch, script_dispatch]
  rfl

theorem sound_dispatch {t : Turn α} (hs : t.Sound) (name : String) (args : List String)
    (remote : Bool) : (t.dispatch name args remote).1.Sound := by
  have hc := t.core_dispatch name args remote
  have hp : (t.dispatch name args remote).1.exec.phase = t.exec.phase := congrArg Core.phase hc
  have hn : (t.dispatch name args remote).1.exec.pending = t.exec.pending :=
    congrArg Core.pending hc
  refine ⟨?_, ?_, fun hα => ?_⟩
  · rw [hp, hn]
    exact hs.waits
  · rw [hp, hn]
    exact hs.runs
  · rw [hp, hn, side_dispatch]
    simp only [isLock_dispatch]
    exact hs.free hα

end Turn

end Tandem
