import Tandem.Proofs.Run.Flag

/-!
# Runs that are cut short

A tick that stops its run is the last one of its advance : nothing else is done for the script after
it but that its command is handed on, and the advance ends the run (`Turn.stopsShort_advanceBy`). So
it is for the operations that advance a run (`Turn.stopsShort_update`, `Turn.stopsShort_run`). A run
that is cut short is interrupted, and tells the other device once (`Turn.CutShort.ends`).
-/

namespace Tandem

namespace Turn

variable {α : Type} {t t' t'' : Turn α}

/-- An element that is not in the front of a list stands behind the front. -/
theorem split_behind {β : Type} {front rest before after : List β} {d : β}
    (h : front ++ rest = before ++ d :: after) (hd : d ∉ front) :
    ∃ before', before = front ++ before' ∧ rest = before' ++ d :: after := by
  obtain ⟨before', hbefore, hrest⟩ | ⟨front', hfront, hrest⟩ := List.append_eq_append_iff.mp h
  · exact ⟨before', hbefore, hrest⟩
  · cases front' with
    | nil => exact ⟨[], by rw [hfront, List.append_nil, List.append_nil], hrest.symm⟩
    | cons e front' =>
      obtain ⟨rfl, -⟩ := List.cons.inj hrest
      exact absurd (hfront ▸ List.mem_append_right before List.mem_cons_self) hd

/-! ## Runs that are cut short -/

/-- From the first turn to the second, a run has worked and then was interrupted. -/
def CutShort (t t' : Turn α) : Prop :=
  ∃ t'', Works t t'' ∧ t''.exec.policy.peerFinished = t.exec.policy.peerFinished ∧
    t' = t''.finish .interrupted

/-- A run that is cut short after some work is cut short. -/
theorem CutShort.after (hw : Works t t')
    (hp : t'.exec.policy.peerFinished = t.exec.policy.peerFinished) (h : CutShort t' t'') :
    CutShort t t'' := by
  obtain ⟨u, hworks, hpeer, rfl⟩ := h
  exact ⟨u, hw.trans hworks, hpeer.trans hp, rfl⟩

/-- A run that is cut short tells the other device once. What it has left behind is cleaned up at
once if the other device has finished. -/
theorem CutShort.ends (h : CutShort t t') :
    t'.seen endWatch = t.seen endWatch ++ [.interrupted, .told] ∧
    t'.exec.phase = (if t.exec.policy.peerFinished then .idle else .interrupted) ∧
    t'.exec.mayRun = false := by
  obtain ⟨u, hworks, hpeer, rfl⟩ := h
  refine ⟨?_, ?_, (u.still_finish _).mayRun⟩
  · rw [seen_endWatch_finish, hworks.seen_endWatch]
  · rw [← hpeer]
    refine (congrArg Core.phase (u.core_finish .interrupted)).trans ?_
    unfold Core.ended
    dsimp only
    cases hp : u.exec.policy.peerFinished with
    | true =>
      rw [if_pos (show u.exec.core.policy.stop.peerFinished = true from hp)]
      rfl
    | false =>
      rw [if_neg (Bool.eq_false_iff.mp (show u.exec.core.policy.stop.peerFinished = false from hp))]
      rfl

variable [Avatar α]

/-- From the first turn to the second, no tick has stopped the run, unless it is the last one :
nothing else is done for the script after it but that its command is handed on, and the run is cut
short. -/
def StopsShort (t t' : Turn α) : Prop :=
  ∀ ⦃before tick after⦄,
    t'.seen (scriptWatch true) = t.seen (scriptWatch true) ++ (before ++ .tick tick :: after) →
      (t.crew.after before).stopsIn tick = true →
        (∀ d ∈ after, d = .command (tick.name, tick.args)) ∧ CutShort t t'

namespace StopsShort

/-- Where nothing is done for the script, no tick stops the run. -/
theorem of_same (h : t'.seen (scriptWatch true) = t.seen (scriptWatch true)) : StopsShort t t' := by
  intro before tick after hseen
  have hnil : before ++ .tick tick :: after = [] :=
    List.append_right_eq_self.mp (hseen.symm.trans h)
  simp at hnil

/-- A run that stops short after some work stops short. -/
theorem after (hw : Works t t') (hp : t'.exec.policy.peerFinished = t.exec.policy.peerFinished)
    (hs : t'.seen (scriptWatch true) = t.seen (scriptWatch true)) (hc : t'.crew = t.crew)
    (h : StopsShort t' t'') : StopsShort t t'' := by
  intro before tick after hseen hstop
  rw [← hs] at hseen
  rw [← hc] at hstop
  obtain ⟨hcommands, hcut⟩ := h hseen hstop
  exact ⟨hcommands, hcut.after hw hp⟩

end StopsShort

/-- What follows a tick hands its command to the crew, and then the rest. -/
theorem Crew.after_tick (k : Crew α) (tick : Tick) {cs : List ScriptDeed} {u : Utterance}
    (hcs : ∀ d ∈ cs, d = .command u) (ds : List ScriptDeed) :
    k.after (.tick tick :: (cs ++ ds)) = (k.issue tick.utterance?.toList).after ds := by
  have hnone : cs.filterMap ScriptDeed.utterance? = [] :=
    List.filterMap_eq_nil_iff.mpr fun d hd => by rw [hcs d hd]; rfl
  have htick : (ScriptDeed.tick tick :: (cs ++ ds)).filterMap ScriptDeed.utterance? =
      tick.utterance?.toList ++ ds.filterMap ScriptDeed.utterance? := by
    rw [List.filterMap_cons, List.filterMap_append, hnone, List.nil_append,
      show ScriptDeed.utterance? (.tick tick) = tick.utterance? from rfl]
    cases tick.utterance? <;> rfl
  rw [Crew.after, htick, Crew.issue, List.foldl_append]
  rfl

omit [Avatar α] in
/-- What is done for the script only grows. -/
theorem RunsTo.grows (h : RunsTo t t') :
    ∃ ds, t'.seen (scriptWatch true) = t.seen (scriptWatch true) ++ ds := by
  have hworks : ∀ {u : Turn α}, Works t u →
      ∃ ds, u.seen (scriptWatch true) = t.seen (scriptWatch true) ++ ds := by
    rintro u ⟨ds, hds, -⟩
    exact ⟨_, by rw [seen, hds, List.filterMap_append]; rfl⟩
  cases h with
  | halts hw => exact hworks hw
  | ends hw =>
    obtain ⟨ds, hds⟩ := hworks hw
    exact ⟨ds, (seen_scriptWatch_finish _ _ _).trans hds⟩

/-- With the run flag cleared, an advance ends the run. -/
theorem advanceBy_of_cleared {n : Nat} (hn : 0 < n) (hm : t.exec.mayRun = false) :
    advanceBy n t = t.finish .interrupted := by
  cases n with
  | zero => cases hn
  | succ n => rw [advanceBy, hm, Bool.not_false, if_pos rfl]

/-- If the rest of an advance has the property, so has the rest with the tick in front of it. -/
theorem stopsShort_makeTick {n : Nat} {tick : Tick} (hn : (t.makeTick tick).Poised n)
    (h : StopsShort (t.makeTick tick) (advanceBy n (t.makeTick tick))) :
    StopsShort t (advanceBy n (t.makeTick tick)) := by
  intro before tick' after hseen hstop
  have hworks := t.works_makeTick tick
  have hpeer := t.peerFinished_makeTick tick
  have hmakes := t.makes_makeTick tick
  obtain ⟨cs, hmade, hcommands⟩ := hmakes.deeds
  obtain ⟨ds, hds⟩ := (runsTo_advanceBy n _ hn).grows
  have hdeeds : .tick tick :: (cs ++ ds) = before ++ .tick tick' :: after := by
    rw [hds, hmade, List.append_assoc] at hseen
    exact List.append_cancel_left hseen
  cases before with
  -- The tick itself stops the run, so the advance ends it at once.
  | nil =>
    obtain ⟨htick, rfl⟩ := List.cons.inj hdeeds
    cases htick
    have hcleared : (t.makeTick tick).exec.mayRun = false := by
      rw [hmakes.mayRun, show t.crew.stopsIn tick = true from hstop, Bool.not_true, Bool.and_false]
    have hend := advanceBy_of_cleared (Nat.zero_lt_of_lt hn.left) hcleared
    have hnone : ds = [] := by
      rw [hend, seen_scriptWatch_finish] at hds
      exact List.append_right_eq_self.mp hds.symm
    rw [hnone, List.append_nil]
    exact ⟨hcommands, _, hworks, hpeer, hend⟩
  -- A later tick does, and the avatars have obeyed this one before.
  | cons d before =>
    obtain ⟨rfl, hrest⟩ := List.cons.inj hdeeds
    have hnot : .tick tick' ∉ cs := fun hm => by cases hcommands _ hm
    obtain ⟨before, rfl, rfl⟩ := split_behind hrest hnot
    rw [Crew.after_tick _ _ hcommands, ← hmakes.crew] at hstop
    obtain ⟨hlast, hcut⟩ := h hds hstop
    exact ⟨hlast, hcut.after hworks hpeer⟩

/-- An advance makes no tick after one that stops the run. -/
theorem stopsShort_advanceBy : ∀ (n : Nat) (t : Turn α), t.Poised n → StopsShort t (advanceBy n t)
  | 0, _, h => absurd h.left (Nat.not_lt_zero _)
  | n + 1, t, h => by
    unfold advanceBy
    split
    · exact .of_same (t.seen_scriptWatch_finish _ _)
    · cases hnext : t.exec.cursor.next? t.exec.waitRule t.script with
      | none => exact .of_same (t.seen_scriptWatch_finish _ _)
      | some found =>
        obtain ⟨c, tick⟩ := found
        obtain ⟨hg, -⟩ | ⟨delay, hg, -, -⟩ | ⟨t', hg, -, -, -, hseen⟩ :=
          (t.moveTo c).passGate_cases tick
        · dsimp only
          rw [hg]
          have hrest := stopsShort_advanceBy n _ (h.makeTick hnext)
          exact .after (.of_deeds rfl) rfl rfl rfl (stopsShort_makeTick (h.makeTick hnext) hrest)
        · dsimp only
          rw [hg]
          exact .of_same rfl
        · dsimp only
          rw [hg]
          refine .of_same ?_
          rw [hseen]
          cases (t.moveTo c).exec.policy.owesRelease <;> exact List.append_nil _

/-- An advance stops short at a tick that stops the run. -/
theorem stopsShort_advance (hp : t.exec.phase = .running) (hu : t.exec.core.UnderWay) :
    StopsShort t t.advance :=
  stopsShort_advanceBy _ t (poised_of_running hp hu)

/-! ## Operations that make ticks -/

omit [Avatar α] in
/-- The passing of time does nothing for the script, and nothing is heard of the other device in
it. -/
theorem passTime_script (t : Turn α) (dt : Float32) :
    (t.passTime dt).1.seen (scriptWatch true) = t.seen (scriptWatch true) ∧
    (t.passTime dt).1.exec.policy.peerFinished = t.exec.policy.peerFinished := by
  refine ⟨t.seen_passTime dt _ fun _ => rfl, ?_⟩
  obtain ⟨policy, phase, pending, late, h, hpolicy, -⟩ := t.passTime_eq dt
  rw [h]
  obtain rfl | rfl := hpolicy
  · rfl
  · obtain ⟨-, hw⟩ | ⟨-, held, hw⟩ | ⟨-, held, hw⟩ := t.exec.policy.waitFor_cases dt <;>
      exact congrArg (fun answer => answer.1.peerFinished) hw

/-- Without a run, an update does nothing. -/
theorem update_of_idle (hr : t.exec.isRunning = false) (dt : Float32) :
    t.update dt = t := by
  rw [update, hr]
  rfl

/-- An update ends a run whose flag is cleared, whatever the run waits for. -/
theorem update_of_cleared (hr : t.exec.isRunning = true) (hm : t.exec.mayRun = false)
    (dt : Float32) :
    t.update dt = t.nextUpdate.finish .interrupted := by
  have hm' : t.nextUpdate.exec.mayRun = false := hm
  rw [update, hr, Bool.not_true, if_neg Bool.false_ne_true]
  dsimp only
  rw [hm', Bool.not_false, if_pos rfl]

/-- An update stops short at a tick that stops the run. -/
theorem stopsShort_update (h : t.exec.Settled) (dt : Float32) : StopsShort t (t.update dt) := by
  cases hr : t.exec.isRunning with
  | false =>
    rw [update_of_idle hr]
    exact .of_same rfl
  | true =>
    obtain ⟨hu, hh⟩ := h.halts_of_running hr
    unfold update
    rw [hr, Bool.not_true, if_neg Bool.false_ne_true]
    dsimp only
    split
    · exact .of_same (seen_scriptWatch_finish _ _ _)
    · have hage : Works t (t.nextUpdate.mapExec fun e => { e with age := e.age.map (· + dt) }) :=
        .of_deeds rfl
      obtain ⟨hw, hu', ht⟩ := passTime_cases
        (t := t.nextUpdate.mapExec fun e => { e with age := e.age.map (· + dt) })
        ⟨hu.running, hu.due⟩ hh dt
      obtain ⟨hseen, hpeer⟩ :=
        passTime_script (t.nextUpdate.mapExec fun e => { e with age := e.age.map (· + dt) }) dt
      have hkeeps := keepsAvatars_passTime
        (t.nextUpdate.mapExec fun e => { e with age := e.age.map (· + dt) }) dt
      split
      · next t' heq =>
        rw [heq] at hw hu' ht hseen hpeer hkeeps
        exact .after (hage.trans hw) hpeer hseen (congrArg₂ Crew.mk hkeeps.own hkeeps.rival)
          (stopsShort_advance ht hu')
      · next t' heq =>
        rw [heq] at hseen
        exact .of_same hseen

/-- A run that starts does nothing for the script before that, and is cut short by the first tick
that stops it. -/
theorem stopsShort_run (hr : t.exec.isRunning = false) : StopsShort t.begin t.run.1 := by
  rw [run, hr]
  exact stopsShort_advance (congrArg Core.phase t.core_begin)
    (t.core_begin ▸ Core.underWay_begun t.exec.core)

end Turn

end Tandem
