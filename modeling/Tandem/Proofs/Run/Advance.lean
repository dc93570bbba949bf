import Tandem.Proofs.Run.Fresh
import Tandem.Proofs.Run.InPlace
import Tandem.Proofs.Run.Loan

/-!
# Advances in place

An advance goes from tick to tick with no bound on its rounds (`Turn.Advances`) : each time, the
walk moves on in place, and the tick that it finds is held back, or made and counted. Whatever
script is lent, and wherever an earlier one has left the walk, this comes to an end of its own, at
the turn that `Turn.advance` gives (`Turn.advances_advance`) : a round that makes a tick leaves one
tick less to be made.

So the walk survives every edit (`Career.survives_edits`). For an order, either the walk does not go
on (`Turn.Pauses`), or it does so in an advance, and the counters of the cursor stay within 32 bits
(`Cursor.Fits`).
-/

namespace Tandem

/-! ## Cursors that fit -/

/-- The counters of the cursor fit into 32 bits. -/
structure Cursor.Fits (c : Cursor) : Prop where
  spent : c.spent ≤ Binary32.wordCap
  frames : ∀ f ∈ c.frames, f.repetition ≤ Binary32.wordCap

/-- A walk begins with counters that fit a word. -/
theorem Cursor.fits_start : start.Fits :=
  ⟨Nat.zero_le _, nofun⟩

/-- A leaf takes no more ticks than a word can count. -/
theorem WaitRule.leafTicks_le_wordCap (rule : WaitRule) (b : CommandHead) :
    rule.leafTicks b ≤ Binary32.wordCap := by
  unfold leafTicks
  split
  · exact Nat.le_of_lt_succ (UInt32.toNat_lt _)
  · exact Nat.succ_le_succ (Nat.zero_le _)

/-- A search has room for another tick where it finds one. -/
theorem Walk.keeps_room (rule : WaitRule) :
    Keeps rule (fun _ => True) (fun s => s.spent < Binary32.wordCap) where
  find _ hlt := Nat.lt_of_lt_of_le hlt (rule.leafTicks_le_wordCap _)
  arrive _ _ := trivial
  nextChild _ _ := trivial
  turn _ _ := trivial
  cleared _ := trivial

/-- A search keeps the repetitions that it counts within 32 bits. -/
theorem Walk.keeps_repetitions (rule : WaitRule) :
    Keeps rule (fun s => ∀ f ∈ s.frames, f.repetition ≤ Binary32.wordCap)
      (fun s => ∀ f ∈ s.frames, f.repetition ≤ Binary32.wordCap) where
  find hs _ := hs
  arrive hs _ f hf := by
    unfold Search.arrive at hf
    split at hf
    · obtain hf | hf := List.mem_append.mp hf
      · exact hs f (List.mem_of_mem_take hf)
      · rw [List.mem_singleton.mp hf]
        exact Nat.zero_le _
    · exact hs f hf
  nextChild hs hnext := by
    obtain ⟨f, hf, rfl⟩ := Search.nextChild_eq_ok hnext
    intro g hg
    obtain hg | rfl := List.mem_or_eq_of_mem_set hg
    · exact hs g (List.mem_of_mem_take hg)
    · exact hs f hf
  turn hs hturn := by
    obtain ⟨f, -, hlt, rfl⟩ := Search.turn_eq_ok hturn
    intro g hg
    obtain hg | rfl := List.mem_or_eq_of_mem_set hg
    · exact hs g hg
    · exact hlt
  cleared _ := nofun

namespace Cursor

variable {rule : WaitRule} {s : Script} {c c' : Cursor} {tick : Tick}

/-- What a search keeps holds of the place where the walk in place finds a tick. -/
theorem settle_keeps {P Q : Search → Prop} (hk : Walk.Keeps rule P Q) {st : Settling}
    (hp : P ⟨c.frames, c.spent, [], []⟩) (h : c.settle rule s = .ok st) :
    match st.found with
    | some (c', _) => Q ⟨c'.frames, c'.spent, st.turned, st.entered⟩
    | none => True := by
  obtain ⟨found?, s', hrun, rfl⟩ := settle_cases h
  have hafter := hk.settleTop hp hrun
  cases found? with
  | none => trivial
  | some found => exact hafter

/-- Where the walk finds a tick, there is room to count it. -/
theorem countOn_of_next? (hnext : c.next? rule s = some (c', tick)) :
    countOn c'.spent = .ok (c'.spent + 1) := by
  obtain ⟨turned, entered, hst⟩ := c.settle_eq rule s
  have hroom := settle_keeps (Walk.keeps_room rule) trivial hst
  rw [hnext] at hroom
  exact countOn_of_lt hroom

/-- The walk takes a cursor that fits to one that fits, and still does when a tick is made. -/
theorem Fits.next? (h : c.Fits) (hnext : c.next? rule s = some (c', tick)) :
    c'.Fits ∧ c'.consume.Fits := by
  obtain ⟨turned, entered, hst⟩ := c.settle_eq rule s
  have hroom := settle_keeps (Walk.keeps_room rule) trivial hst
  have hframes := settle_keeps (Walk.keeps_repetitions rule) h.frames hst
  rw [hnext] at hroom hframes
  exact ⟨⟨Nat.le_of_lt hroom, hframes⟩, ⟨hroom, hframes⟩⟩

end Cursor

/-! ## Advances -/

namespace Turn

variable {α : Type} [Avatar α]

/-- An advance takes the first turn to the second. The walk moves on in place, and the tick that it
finds is held back, or is made and counted. -/
inductive Advances : Turn α → Turn α → Prop
  | cleared {t : Turn α} : t.exec.mayRun = false → Advances t (t.finish .interrupted)
  | done {t : Turn α} {st : Settling} :
    t.exec.mayRun = true → t.exec.cursor.settle t.exec.waitRule t.script = .ok st →
      st.found = none → Advances t (t.finish .completed)
  | held {t t' : Turn α} {st : Settling} {c : Cursor} {tick : Tick} :
    t.exec.mayRun = true → t.exec.cursor.settle t.exec.waitRule t.script = .ok st →
      st.found = some (c, tick) → (t.moveTo c).passGate tick = (t', false) → Advances t t'
  | tick {t t' t'' : Turn α} {st : Settling} {c : Cursor} {tick : Tick} :
    t.exec.mayRun = true → t.exec.cursor.settle t.exec.waitRule t.script = .ok st →
      st.found = some (c, tick) → (t.moveTo c).passGate tick = (t', true) →
        countOn t'.exec.cursor.spent = .ok (t'.makeTick tick).exec.cursor.spent →
          Advances (t'.makeTick tick) t'' → Advances t t''

/-- A tick that is let through changes nothing. -/
theorem eq_of_passGate {t t' : Turn α} {tick : Tick} (h : t.passGate tick = (t', true)) :
    t' = t := by
  obtain ⟨hg, -⟩ | ⟨delay, hg, -⟩ | ⟨t'', hg, -⟩ := t.passGate_cases tick
  · exact (Prod.mk.inj (h.symm.trans hg)).1
  · cases (Prod.mk.inj (h.symm.trans hg)).2
  · cases (Prod.mk.inj (h.symm.trans hg)).2

/-- Whatever script is lent, and wherever the walk was left, an advance comes to its end : with more
rounds than there are ticks ahead, it is not cut off. -/
theorem advances_advanceBy : ∀ (n : Nat) (t : Turn α), t.side.left.length < n →
    Advances t (advanceBy n t)
  | 0, _, h => absurd h (Nat.not_lt_zero _)
  | n + 1, t, h => by
    unfold advanceBy
    by_cases hrun : t.exec.mayRun = true
    swap
    · rw [if_pos (by rw [Bool.eq_false_iff.mpr hrun]; rfl)]
      exact .cleared (Bool.eq_false_iff.mpr hrun)
    rw [if_neg (by rw [hrun]; exact Bool.false_ne_true)]
    obtain ⟨turned, entered, hst⟩ := t.exec.cursor.settle_eq t.exec.waitRule t.script
    cases hnext : t.exec.cursor.next? t.exec.waitRule t.script with
    | none => exact .done hrun hst hnext
    | some found =>
      obtain ⟨c, tick⟩ := found
      dsimp only
      cases hg : (t.moveTo c).passGate tick with
      | mk t' passed =>
        cases passed with
        | false => exact .held hrun hst hnext hg
        | true =>
          obtain rfl := eq_of_passGate hg
          have hspent : ((t.moveTo c).makeTick tick).exec.cursor.spent = c.spent + 1 :=
            congrArg (fun core => core.cursor.spent) ((t.moveTo c).core_makeTick tick)
          refine .tick hrun hst hnext hg ?_ (advances_advanceBy n _ ?_)
          · rw [hspent]
            exact Cursor.countOn_of_next? hnext
          -- The tick that was made is not ahead any more.
          · obtain ⟨-, rest, hrest⟩ := side_moveTo hnext
            rw [hrest, List.length_cons] at h
            rw [side_makeTick hnext, Side.after, hrest]
            exact Nat.lt_of_succ_lt_succ h

/-- The turn that an advance gives is the one that it comes to by itself. -/
theorem advances_advance (t : Turn α) : Advances t t.advance :=
  advances_advanceBy _ t
    (Nat.lt_succ_of_le (t.exec.cursor.length_remaining_le t.exec.waitRule t.script))

omit [Avatar α] in
/-- The end of a run leaves the cursor where it is, or puts it back. -/
theorem cursor_finish (t : Turn α) (outcome : Phase) :
    (t.finish outcome).exec.cursor = t.exec.cursor ∨ (t.finish outcome).exec.cursor = .start := by
  have h : (t.finish outcome).exec.cursor = (t.exec.core.ended outcome).cursor :=
    congrArg Core.cursor (t.core_finish outcome)
  rw [h, Core.ended]
  dsimp only
  split
  · exact Or.inr rfl
  · exact Or.inl rfl

omit [Avatar α] in
theorem cursor_passTime (t : Turn α) (dt : Float32) :
    (t.passTime dt).1.exec.cursor = t.exec.cursor := by
  obtain ⟨policy, phase, pending, late, h, -⟩ := t.passTime_eq dt
  rw [h]
  cases late <;> rfl

theorem cursor_passGate (t : Turn α) (tick : Tick) :
    (t.passGate tick).1.exec.cursor = t.exec.cursor := by
  obtain ⟨hg, -⟩ | ⟨delay, hg, -⟩ | ⟨t', hg, -, hcore, -⟩ := t.passGate_cases tick
  · rw [hg]
  · rw [hg]
    rfl
  · rw [hg]
    exact congrArg Core.cursor hcore

/-- What the start has, and the walk keeps in the script at hand, is kept by an advance. -/
theorem Advances.keeps {P : Cursor → Prop} {rule : WaitRule} {s : Script} (hstart : P .start)
    (hmove : ∀ {s' c c' tick}, s'.clearRunning = s.clearRunning → P c →
      c.next? rule s' = some (c', tick) → P c' ∧ P c'.consume)
    {t t' : Turn α} (h : Advances t t') (hrule : t.exec.waitRule = rule)
    (hs : t.script.clearRunning = s.clearRunning) (hp : P t.exec.cursor) : P t'.exec.cursor := by
  have hfound : ∀ {t : Turn α} {st c tick}, t.exec.waitRule = rule →
      t.script.clearRunning = s.clearRunning → P t.exec.cursor →
      t.exec.cursor.settle t.exec.waitRule t.script = .ok st → st.found = some (c, tick) →
        P c ∧ P c.consume := by
    intro t st c tick hrule hs hp hst hst'
    rw [Cursor.found_of_settle hst, hrule] at hst'
    exact hmove hs hp hst'
  have hend : ∀ {t : Turn α} (outcome : Phase), P t.exec.cursor →
      P (t.finish outcome).exec.cursor := by
    intro t outcome hp
    obtain h | h := t.cursor_finish outcome
    · exact h ▸ hp
    · exact h ▸ hstart
  induction h with
  | cleared _ => exact hend _ hp
  | done _ _ _ => exact hend _ hp
  | @held t t' _ c tick _ hst hst' hg =>
    have hc := (t.moveTo c).cursor_passGate tick
    rw [hg] at hc
    rw [show t'.exec.cursor = c from hc]
    exact (hfound hrule hs hp hst hst').1
  | @tick t _ _ _ c tick _ hst hst' hg _ _ ih =>
    obtain rfl := eq_of_passGate hg
    have hcore := (t.moveTo c).core_makeTick tick
    refine ih ?_ ?_ ?_
    · refine (congrArg Core.waitRule hcore).trans (Eq.trans ?_ hrule)
      rw [Core.waitRule, Core.ticked, SyncPolicy.afterTick_eq]
      rfl
    · exact ((t.moveTo c).script_makeTick tick).trans hs
    · rw [show ((t.moveTo c).makeTick tick).exec.cursor = c.consume from congrArg Core.cursor hcore]
      exact (hfound hrule hs hp hst hst').2

/-! ## Orders -/

/-- Steps do not change what the executor was set up with. -/
theorem Steps.setup {t t' : Turn α} (h : Steps t t') : t'.setup = t.setup :=
  h.preserve (P := fun u => u.setup = t.setup) (fun hs hu => (setup_step hs).trans hu) rfl

/-- From the first turn to the second, the walk does not go on : no tick is made, and the cursor
stays where it is or is put back to the start. -/
structure Pauses (t t' : Turn α) : Prop where
  cursor : t'.exec.cursor = t.exec.cursor ∨ t'.exec.cursor = .start
  seen : ∀ {β : Type} {w : Watch β}, w.OfTicks → t'.seen w = t.seen w

section Pauses

variable {t t' t'' : Turn α}

omit [Avatar α] in
theorem Pauses.refl (t : Turn α) : Pauses t t :=
  ⟨Or.inl rfl, fun _ => rfl⟩

omit [Avatar α] in
/-- Two pauses, one after the other, are one. -/
theorem Pauses.trans (h : Pauses t t') (h' : Pauses t' t'') : Pauses t t'' := by
  refine ⟨?_, fun hw => (h'.seen hw).trans (h.seen hw)⟩
  obtain hc | hc := h'.cursor
  · rw [hc]
    exact h.cursor
  · exact Or.inr hc

omit [Avatar α] in
/-- What the start has is kept while the walk does not go on. -/
theorem Pauses.keeps {P : Cursor → Prop} (hstart : P .start) (h : Pauses t t')
    (hp : P t.exec.cursor) : P t'.exec.cursor := by
  obtain hc | hc := h.cursor
  · exact hc ▸ hp
  · exact hc ▸ hstart

omit [Avatar α] in
theorem pauses_record (t : Turn α) (e : RunEvent) : Pauses t (t.record e) :=
  ⟨Or.inl rfl, fun hw => hw.seen_record t e⟩

omit [Avatar α] in
theorem pauses_mapExec (t : Turn α) {f : Executor α → Executor α}
    (h : (f t.exec).cursor = t.exec.cursor) : Pauses t (t.mapExec f) :=
  ⟨Or.inl h, fun _ => rfl⟩

omit [Avatar α] in
theorem pauses_setPolicy (t : Turn α) (p : SyncPolicy) : Pauses t (t.setPolicy p) :=
  t.pauses_mapExec rfl

omit [Avatar α] in
/-- To clean up is no step of the walk. -/
theorem pauses_cleanup (t : Turn α) : Pauses t t.cleanup := by
  refine ⟨Or.inr (congrArg Core.cursor t.core_cleanup), fun hw => ?_⟩
  rw [seen_cleanup, hw.ofCleanup, List.append_nil]

omit [Avatar α] in
theorem pauses_finish (t : Turn α) (outcome : Phase) : Pauses t (t.finish outcome) :=
  ⟨t.cursor_finish outcome, fun hw => hw.seen_finish t outcome⟩

omit [Avatar α] in
/-- A run begins with the cursor at the start. -/
theorem pauses_begin (t : Turn α) : Pauses t t.begin :=
  ⟨Or.inr (congrArg Core.cursor t.core_begin), fun hw => hw.seen_begin t⟩

omit [Avatar α] in
theorem pauses_send (t : Turn α) (m : Message) : Pauses t (t.send m) :=
  ⟨Or.inl rfl, fun hw => hw.seen_send t m⟩

omit [Avatar α] in
/-- While time passes the walk stands still. -/
theorem pauses_passTime (t : Turn α) (dt : Float32) : Pauses t (t.passTime dt).1 :=
  ⟨Or.inl (t.cursor_passTime dt), fun hw => hw.seen_passTime t dt⟩

omit [Avatar α] in
theorem pauses_afterPeerEnd (t : Turn α) : Pauses t t.afterPeerEnd := by
  have hrecord := (t.pauses_record .peerFinished).trans
    (pauses_setPolicy _ t.exec.policy.afterPeerEnd)
  unfold afterPeerEnd
  dsimp only
  split
  · exact hrecord.trans (pauses_cleanup _)
  · exact hrecord

theorem pauses_dispatch (t : Turn α) (name : String) (args : List String) (remote : Bool) :
    Pauses t (t.dispatch name args remote).1 := by
  refine ⟨Or.inl (congrArg Core.cursor (t.core_dispatch name args remote)), fun hw => ?_⟩
  rw [seen_dispatch _ _ _ _ _ hw.alike, Watch.ofCommand, hw.ofEvent, List.append_nil]

/-- A run that is started goes on in an advance. -/
theorem run_cases (t : Turn α) : Pauses t t.run.1 ∨
    ∃ t', Steps t t' ∧ Pauses t t' ∧ t.run.1 = t'.advance := by
  unfold run
  split
  · exact Or.inl (t.pauses_record .runRejected)
  · next hr =>
    exact Or.inr ⟨_, .single (.begin (Bool.eq_false_iff.mpr hr)), t.pauses_begin, rfl⟩

theorem update_cases (t : Turn α) (dt : Float32) : Pauses t (t.update dt) ∨
    ∃ t', Steps t t' ∧ Pauses t t' ∧ t.update dt = t'.advance := by
  unfold update
  split
  · exact Or.inl (.refl t)
  · next hr =>
    have hr : t.exec.isRunning = true := by simpa using hr
    have hnext : Pauses t t.nextUpdate := t.pauses_mapExec rfl
    dsimp only
    split
    · exact Or.inl (hnext.trans (t.nextUpdate.pauses_finish .interrupted))
    · have hsteps : Steps t t.nextUpdate := .single (.adjust _ ⟨rfl, rfl, rfl, rfl, rfl⟩)
      have hage := hsteps.tail (.adjust (fun e => { e with age := e.age.map (· + dt) })
        ⟨rfl, rfl, rfl, rfl, rfl⟩)
      have htime := hage.tail (.wait dt hr)
      have hpauses := (hnext.trans (pauses_mapExec _
        (f := fun e => { e with age := e.age.map (· + dt) }) rfl)).trans (pauses_passTime _ dt)
      split
      · next hpass =>
        rw [hpass] at htime hpauses
        exact Or.inr ⟨_, htime, hpauses, rfl⟩
      · next hpass =>
        rw [hpass] at hpauses
        exact Or.inl hpauses

/-- For an order, the walk does not go on, or it does so in an advance. -/
theorem obey_cases (t : Turn α) (o : Order) : Pauses t (t.obey o) ∨
    ∃ t', Steps t t' ∧ Pauses t t' ∧ t.obey o = t'.advance := by
  cases o with
  | lend s => exact Or.inl ⟨Or.inl rfl, fun _ => rfl⟩
  | run => exact t.run_cases
  | startTogether =>
    rw [obey, startTogether]
    split
    · exact Or.inl (t.pauses_record .runRejected)
    · obtain hpauses | ⟨t', hsteps, hpauses, hrun⟩ := (t.send .run).run_cases
      · exact Or.inl ((t.pauses_send .run).trans hpauses)
      · exact Or.inr ⟨t', .head .ask hsteps, (t.pauses_send .run).trans hpauses, hrun⟩
  | issue name args => exact Or.inl (t.pauses_dispatch name args false)
  | abandon =>
    exact Or.inl (((t.pauses_mapExec rfl).trans (pauses_record _ .reset)).trans
      (pauses_cleanup _))
  | call call =>
    cases call with
    | update dt => exact t.update_cases dt
    | release => exact Or.inl ((t.pauses_record .unlockReceived).trans (pauses_setPolicy _ _))
    | peerEnd => exact Or.inl t.pauses_afterPeerEnd
    | command name args => exact Or.inl (t.pauses_dispatch name args true)
    | interrupt =>
      rw [obey, serve, interrupt]
      split
      · exact Or.inl (t.pauses_finish .interrupted)
      · exact Or.inl (.refl t)
    | clearFlag => exact Or.inl (t.pauses_mapExec rfl)

end Pauses

end Turn

/-! ## Careers -/

namespace Career

variable {α : Type} [Avatar α]

/-- Whatever the executor is ordered to do, the counters of its walk fit a word. -/
theorem fits_obey {c : Career α} (h : c.exec.cursor.Fits) (o : Order) :
    (c.obey o).exec.cursor.Fits := by
  show ((c.exec.on c.script).obey o).exec.cursor.Fits
  obtain hp | ⟨t, -, hp, hgoes⟩ := (c.exec.on c.script).obey_cases o
  · exact hp.keeps Cursor.fits_start h
  · rw [hgoes]
    exact t.advances_advance.keeps Cursor.fits_start (fun _ hfits hnext => hfits.next? hnext) rfl
      rfl (hp.keeps Cursor.fits_start h)

/-- Whatever scripts are lent between the orders, the counters of the cursor fit into 32 bits. -/
theorem fits (role : Role) (mode : SyncMode) (timings : Timings) (wait : String) (own rival : α)
    (s : Script) (orders : List Order) :
    ((Executor.new role mode timings wait own rival).career s orders).exec.cursor.Fits := by
  have h : ∀ (orders : List Order) {c : Career α}, c.exec.cursor.Fits →
      (orders.foldl obey c).exec.cursor.Fits := by
    intro orders
    induction orders with
    | nil => exact fun h => h
    | cons o orders ih => exact fun h => ih (fits_obey h o)
  exact h orders Cursor.fits_start

/-- The walk survives every edit. Whatever orders an executor has been given, and whatever scripts
it was lent between them, the counters of its cursor fit; in every script that it may be lent next,
the walk in place comes to the next tick without a fault; and for the next order, the walk does not
go on, or it does so in an advance that comes to its end. -/
theorem survives_edits (role : Role) (mode : SyncMode) (timings : Timings) (wait : String)
    (own rival : α) (s : Script) (orders : List Order) :
    let c := (Executor.new role mode timings wait own rival).career s orders
    let t := c.exec.on c.script
    c.exec.cursor.Fits ∧
      (∀ s' : Script, ∃ turned entered, c.exec.cursor.settle c.exec.waitRule s' =
        .ok ⟨c.exec.cursor.next? c.exec.waitRule s', turned, entered⟩) ∧
      ∀ o : Order, t.Pauses (t.obey o) ∨
        ∃ t', t.Pauses t' ∧ t.obey o = t'.advance ∧ t'.Advances t'.advance := by
  intro c t
  refine ⟨fits role mode timings wait own rival s orders,
    fun s' => c.exec.cursor.settle_eq _ s', ?_⟩
  intro o
  obtain hp | ⟨t', -, hp, hgoes⟩ := t.obey_cases o
  · exact Or.inl hp
  · exact Or.inr ⟨t', hp, hgoes, t'.advances_advance⟩

end Career

end Tandem
