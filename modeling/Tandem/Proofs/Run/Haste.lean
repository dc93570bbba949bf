import Tandem.Proofs.Run.Fate

/-!
# Runs in one go

A tick that is no tick of waiting, and whose command takes no part in the synchronisation, waits for
nothing (`Turn.passGate_of_free`). A run with no other ticks, of an avatar that cannot die, is over
in the operation that starts it : all its commands are handed to the avatar, and told, before any
time has passed (`Turn.run_of_free`). So there is no bound on what one operation does, but for the
length of the script.
-/

namespace Tandem

/-- The tick is no tick of waiting, and its command takes no part in the synchronisation. -/
def Tick.Free (v : Vocabulary) (tick : Tick) : Prop :=
  tick.wait = false ∧ v.isLock tick.name = false

/-- The ticks of a script are free if none of its commands waits or takes part in the
synchronisation. -/
theorem Script.free_of_gives {v : Vocabulary} {rule : WaitRule} {s : Script}
    (h : s.Gives fun u => u.1 ≠ rule.command ∧ v.isLock u.1 = false) :
    ∀ tick ∈ s.expansion rule, tick.Free v := by
  intro tick ht
  obtain ⟨hwait, hlock⟩ := h rule .start tick (by rw [Cursor.remaining_start]; exact ht)
  refine ⟨?_, hlock⟩
  rw [wait_of_mem_expansion ht, WaitRule.waits]
  exact beq_false_of_ne hwait

/-! ## Avatars that cannot die -/

namespace GridAvatar

/-- The avatar is alive, and there is nothing on its board that it could die of. -/
structure Safe (a : GridAvatar) : Prop where
  traps : a.traps = []
  dead : a.dead = false

namespace Safe

variable {a : GridAvatar}

/-- A step leaves an avatar safe, since there is no trap for it. -/
theorem step (h : a.Safe) (d : Direction) : (a.step d).Safe := by
  unfold GridAvatar.step
  dsimp only
  split
  · exact ⟨h.traps, by rw [h.dead, h.traps]; rfl⟩
  · exact h

theorem act (h : a.Safe) (action : GridAction) : (a.act action).Safe := by
  unfold GridAvatar.act
  cases a.moveOf? action with
  | some d => exact h.step d
  | none =>
    dsimp only
    split
    · exact ⟨h.traps, rfl⟩
    · exact ⟨h.traps, h.dead⟩
    · exact ⟨h.traps, h.dead⟩
    all_goals first | exact h | (split <;> first | exact h | exact ⟨h.traps, h.dead⟩)

/-- A safe avatar is safe after every command. -/
theorem obey (h : a.Safe) (u : Utterance) : (Avatar.obey a u).Safe := by
  have hperform : (a.perform u.1 u.2).avatar.Safe := by
    unfold GridAvatar.perform
    split
    · exact h
    · exact h.act _
  unfold Avatar.obey
  split
  · exact h
  · exact hperform

/-- Whatever it is handed, a safe avatar is safe. -/
theorem fate (h : a.Safe) (us : List Utterance) : (Avatar.fate a us).Safe := by
  induction us generalizing a with
  | nil => exact h
  | cons u us ih => exact ih (h.obey u)

/-- An avatar that cannot die obeys all commands. -/
theorem obeyed (h : a.Safe) (us : List Utterance) : Avatar.obeyed a us = us := by
  induction us generalizing a with
  | nil => rfl
  | cons u us ih =>
    have hdead : Avatar.isDead a = false := h.dead
    rw [Avatar.obeyed, hdead, if_neg Bool.false_ne_true, ih (h.obey u)]

end Safe

end GridAvatar

namespace Turn

/-! ## Free ticks -/

variable {t : Turn GridAvatar}

/-- A free tick takes no part in the synchronisation, and is no wait. -/
theorem tickClass_of_free {tick : Tick} (h : tick.Free t.exec.own.vocabulary) :
    t.tickClass tick = ⟨false, false⟩ :=
  congrArg₂ TickClass.mk h.2 h.1

/-- A free tick is let through at once. -/
theorem passGate_of_free {tick : Tick} (h : tick.Free t.exec.own.vocabulary) :
    t.passGate tick = (t, true) := by
  have hslack : ¬timeSlack < (if (0 : Float32) < 0 then 0 else 0) := by decide +kernel
  unfold passGate
  split
  · rfl
  · rw [tickClass_of_free h]
    exact if_neg hslack

/-- The own avatar is safe after whatever is enacted, and knows what it knew before. -/
theorem Enacts.safe {t' : Turn GridAvatar} (h : Enacts t t') (hs : t.exec.own.Safe) :
    t'.exec.own.Safe ∧ t'.exec.own.vocabulary = t.exec.own.vocabulary := by
  obtain ⟨made, -, -, hown⟩ := h
  rw [hown]
  exact ⟨hs.fate _, t.exec.own.vocabulary_fate _⟩

/-! ## Runs of free ticks -/

/-- Without an excuse, and with the avatar alive, a run may go on. -/
theorem Excused.mayRun (h : t.Excused False) (hr : t.exec.isRunning = true)
    (ha : t.exec.own.dead = false) : t.exec.mayRun = true := by
  by_contra hmay
  have hdead := (h.flag hr (Bool.eq_false_iff.mpr hmay)).resolve_left id
  cases hdead.symm.trans ha

/-- An advance makes all ticks that are ahead, if they are free. -/
theorem ticks_advanceBy_of_free : ∀ (n : Nat) {t : Turn GridAvatar}, t.Excused False →
    t.exec.isRunning = true → t.exec.own.Safe →
    (∀ tick ∈ t.side.left, tick.Free t.exec.own.vocabulary) → t.side.left.length < n →
      (advanceBy n t).ticks = t.ticks ++ t.side.left
  | 0, _, _, _, _, _, hlen => absurd hlen (Nat.not_lt_zero _)
  | n + 1, t, he, hr, hs, hfree, hlen => by
    -- Nothing but the death of the avatar would stop the run before its script is completed.
    have hmay : t.exec.mayRun = true := he.mayRun hr hs.dead
    unfold advanceBy
    rw [hmay, Bool.not_true, if_neg Bool.false_ne_true]
    cases hnext : t.exec.cursor.next? t.exec.waitRule t.script with
    | none =>
      have hleft : t.side.left = [] := Cursor.remaining_of_next?_eq_none hnext
      rw [hleft, List.append_nil]
      exact ofTicks_tickWatch.seen_finish t .completed
    | some found =>
      obtain ⟨c, tick⟩ := found
      obtain ⟨-, rest, hleft⟩ := side_moveTo hnext
      rw [hleft, List.forall_mem_cons] at hfree
      have hpass : (t.moveTo c).passGate tick = (t.moveTo c, true) := passGate_of_free hfree.1
      dsimp only
      rw [hpass]
      have hmove : (t.moveTo c).Excused False := he.of_same ⟨rfl, rfl, rfl⟩ (fun hr => hr) rfl
      obtain ⟨hsafe, hknows⟩ := (enacts_makeTick (t.moveTo c) tick).safe hs
      have hrest : ((t.moveTo c).makeTick tick).side.left = rest := by
        rw [side_makeTick hnext, Side.after, hleft, List.tail_cons]
      have hticks : ((t.moveTo c).makeTick tick).ticks = t.ticks ++ [tick] :=
        ofTicks_tickWatch.seen_makeTick (t.moveTo c) tick
      rw [hleft] at hlen ⊢
      rw [ticks_advanceBy_of_free n (hmove.makeTick tick)
        ((congrArg Core.isRunning ((t.moveTo c).core_makeTick tick)).trans hr) hsafe
        (by rw [hrest, hknows]; exact hfree.2) (by rw [hrest]; exact Nat.lt_of_succ_lt_succ hlen),
        hrest, hticks, List.append_assoc]
      rfl

/-- A run whose ticks are free, of an avatar that cannot die, hands the avatar all commands of its
script when it is started, and tells them. -/
theorem run_of_free (hr : t.exec.isRunning = false) (he : t.Excused False) (hs : t.exec.own.Safe)
    (hfree : ∀ tick ∈ t.script.expansion t.exec.waitRule, tick.Free t.exec.own.vocabulary) :
    t.run.1.told = t.told ++ t.script.utterances t.exec.waitRule.command ∧
      t.run.1.exec.own =
        Avatar.fate t.exec.own (t.script.utterances t.exec.waitRule.command) := by
  have hside := t.side_begin
  have hleft : t.begin.side.left = t.script.expansion t.exec.waitRule := congrArg Side.left hside
  obtain ⟨hown, -⟩ := t.crew_begin
  have hticks : t.begin.advance.ticks = t.begin.ticks ++ t.script.expansion t.exec.waitRule := by
    rw [← hleft]
    refine ticks_advanceBy_of_free _ (excused_begin he) (congrArg Core.isRunning t.core_begin)
      (hown ▸ hs) (by rw [hleft, hown]; exact hfree) ?_
    exact Nat.lt_succ_of_le (Cursor.length_remaining_le _ _ _)
  have htold : t.begin.told = t.told := by
    rw [told, seen_begin]
    cases t.exec.cleanupDue <;> exact List.append_nil _
  obtain ⟨made, hmade, htells, hbecomes⟩ := enacts_advanceBy
    (t.begin.script.ticks t.begin.exec.waitRule + 1) t.begin
  obtain rfl : made = t.script.expansion t.exec.waitRule :=
    List.append_cancel_left (hmade.symm.trans hticks)
  have hrun : t.run.1 = t.begin.advance := by
    rw [run, hr]
    rfl
  rw [hrun, ← htold, ← Script.filterMap_utterance?_expansion t.exec.waitRule, ← hown]
  refine ⟨htells.trans (congrArg (_ ++ ·) ?_), hbecomes⟩
  rw [hown]
  exact hs.obeyed _

/-- A run of free ticks is made at once, and tells all of its commands. -/
theorem told_run_of_free (hr : t.exec.isRunning = false) (he : t.Excused False)
    (hs : t.exec.own.Safe)
    (hfree : ∀ tick ∈ t.script.expansion t.exec.waitRule, tick.Free t.exec.own.vocabulary) :
    t.run.1.told = t.told ++ t.script.utterances t.exec.waitRule.command :=
  (run_of_free hr he hs hfree).1

end Turn

end Tandem
