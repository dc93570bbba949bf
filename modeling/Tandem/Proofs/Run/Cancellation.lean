import Tandem.Proofs.Run.CutShort

/-!
# Cooperative cancellation

A run whose flag is cleared makes no tick any more, and hands on no command of its script, until
another run starts. If the flag is cleared in a tick, the advance that makes the tick ends the run
right after it (`Turn.obey_stops`). If it is cleared between operations, the next update ends the
run, whatever the run waits for (`Turn.cutShort_update`). Either way the run is interrupted, and the
other device is told once. `Career.stops_once_cleared` says so of every career.
-/

namespace Tandem

/-! ## Orders -/

namespace Order

/-- The order may make ticks. -/
def mayTick : Order → Bool
  | run | startTogether | call (.update _) => true
  | _ => false

/-- Only to start a run, and to let time pass, may make ticks. -/
theorem eq_of_mayTick {o : Order} (h : o.mayTick = true) :
    o = .run ∨ o = .startTogether ∨ ∃ dt, o = .call (.update dt) := by
  cases o with
  | run => exact Or.inl rfl
  | startTogether => exact Or.inr (Or.inl rfl)
  | call c =>
    cases c with
    | update dt => exact Or.inr (Or.inr ⟨dt, rfl⟩)
    | release | peerEnd | command | interrupt | clearFlag => cases h
  | lend | issue | abandon => cases h

/-- The order tells that the other device has finished. -/
def isPeerEnd : Order → Bool
  | call .peerEnd => true
  | _ => false

/-- The order neither lets time pass nor ends a run. -/
def leavesRun : Order → Bool
  | abandon | call (.update _) | call .interrupt => false
  | _ => true

end Order

namespace Turn

variable {α : Type} [Avatar α] {t : Turn α}

/-- An order that makes no ticks does nothing for the script, and does not set the run flag. -/
theorem obey_of_not_mayTick {o : Order} (ho : o.mayTick = false) :
    (t.obey o).seen (scriptWatch o.isScripted) = t.seen (scriptWatch o.isScripted) ∧
    (t.exec.mayRun = false → (t.obey o).exec.mayRun = false) := by
  have hdispatch : ∀ name args remote,
      (t.dispatch name args remote).1.seen (scriptWatch false) = t.seen (scriptWatch false) ∧
      (t.exec.mayRun = false → (t.dispatch name args remote).1.exec.mayRun = false) := by
    refine fun name args remote => ⟨?_, fun hm => ?_⟩
    · exact (t.seen_dispatch _ _ _ _ alike_scriptWatch).trans (List.append_nil _)
    · rw [mayRun_dispatch, hm, Bool.false_and]
  cases o with
  | lend s => exact ⟨rfl, id⟩
  | run | startTogether => cases ho
  | issue name args => exact hdispatch name args false
  | abandon =>
    refine ⟨(seen_scriptWatch_cleanup _ _).trans ?_, fun _ => (still_cleanup rfl).mayRun⟩
    exact (seen_record _ _ _).trans (List.append_nil _)
  | call c =>
    cases c with
    | update dt => cases ho
    | release => exact ⟨(t.seen_afterRelease _).trans (List.append_nil _), id⟩
    | peerEnd =>
      refine ⟨(t.seen_afterPeerEnd _).trans ?_, fun hm => ?_⟩
      · cases t.side.due <;> exact List.append_nil _
      · show t.afterPeerEnd.exec.mayRun = false
        unfold afterPeerEnd
        dsimp only
        split
        · exact (still_cleanup (t := (t.record .peerFinished).setPolicy _) hm).mayRun
        · exact hm
    | command name args => exact hdispatch name args true
    | interrupt =>
      show t.interrupt.seen _ = _ ∧ (_ → t.interrupt.exec.mayRun = false)
      unfold interrupt
      split
      · exact ⟨t.seen_scriptWatch_finish _ _, fun _ => (t.still_finish _).mayRun⟩
      · exact ⟨rfl, id⟩
    | clearFlag => exact ⟨rfl, fun _ => rfl⟩

/-- The first thing that is done for the script when a run is asked for is to start it. -/
theorem starts_run (hr : t.exec.isRunning = false) :
    ∃ ds, t.run.1.seen (scriptWatch true) = t.seen (scriptWatch true) ++ .start :: ds := by
  obtain ⟨ds, hds⟩ := (runsTo_run hr).grows
  exact ⟨ds, by rw [hds, seen_scriptWatch_begin, List.append_assoc]; rfl⟩

omit [Avatar α] in
theorem seen_scriptWatch_rejected (t : Turn α) :
    (t.record .runRejected).seen (scriptWatch true) = t.seen (scriptWatch true) :=
  (t.seen_record _ _).trans (List.append_nil _)

/-- An order that may make ticks is an update, or it asks for a run : the run is refused where one
is in progress, and starts otherwise. -/
theorem obey_of_mayTick (t : Turn α) {o : Order} (ho : o.mayTick = true) :
    (∃ dt, o = .call (.update dt)) ∨ o.isScripted = true ∧
      (t.exec.isRunning = true ∧ t.obey o = t.record .runRejected ∨
        t.exec.isRunning = false ∧ ∃ t' : Turn α, t.obey o = t'.run.1 ∧ t'.exec = t.exec ∧
          t'.seen (scriptWatch true) = t.seen (scriptWatch true) ∧
          t'.seen endWatch = t.seen endWatch) := by
  obtain rfl | rfl | hupdate := Order.eq_of_mayTick ho
  · refine Or.inr ⟨rfl, ?_⟩
    cases hr : t.exec.isRunning with
    | true => exact Or.inl ⟨rfl, congrArg Prod.fst (if_pos hr)⟩
    | false => exact Or.inr ⟨rfl, t, rfl, rfl, rfl, rfl⟩
  · refine Or.inr ⟨rfl, ?_⟩
    cases hr : t.exec.isRunning with
    | true => exact Or.inl ⟨rfl, congrArg Prod.fst (if_pos hr)⟩
    | false =>
      refine Or.inr ⟨rfl, t.send .run, congrArg Prod.fst (if_neg (Bool.eq_false_iff.mp hr)),
        rfl, ?_⟩
      exact ⟨(t.seen_send _ _).trans (List.append_nil _),
        (t.seen_send _ _).trans (List.append_nil _)⟩
  · exact Or.inl hupdate

/-- With the run flag cleared, the first thing that any order does for the script is to start
another run. -/
theorem obey_of_cleared (hm : t.exec.mayRun = false) (o : Order) :
    ((t.obey o).seen (scriptWatch o.isScripted) = t.seen (scriptWatch o.isScripted) ∧
      (t.obey o).exec.mayRun = false) ∨
    ∃ ds, (t.obey o).seen (scriptWatch o.isScripted) =
      t.seen (scriptWatch o.isScripted) ++ .start :: ds := by
  cases ho : o.mayTick with
  | false => exact Or.inl ((obey_of_not_mayTick ho).imp id (· hm))
  | true =>
    obtain ⟨dt, rfl⟩ | ⟨hs, ⟨-, hobey⟩ | ⟨hr, t', hobey, hexec, hseen, -⟩⟩ := t.obey_of_mayTick ho
    · cases hr : t.exec.isRunning with
      | false =>
        rw [show t.obey (.call (.update dt)) = t from update_of_idle hr dt]
        exact Or.inl ⟨rfl, hm⟩
      | true =>
        rw [show t.obey (.call (.update dt)) = t.nextUpdate.finish .interrupted from
          update_of_cleared hr hm dt]
        exact Or.inl ⟨seen_scriptWatch_finish _ _ _, (still_finish _ _).mayRun⟩
    · rw [hobey, hs]
      exact Or.inl ⟨t.seen_scriptWatch_rejected, hm⟩
    · rw [hobey, hs, ← hseen]
      exact Or.inr (starts_run (hexec ▸ hr))

/-- A run that is stopped by a tick in the operation that starts it ends in it. The other device
cannot have finished by then. -/
theorem run_stops (hr : t.exec.isRunning = false) {before after : List ScriptDeed} {tick : Tick}
    (hseen : t.run.1.seen (scriptWatch true) =
      t.seen (scriptWatch true) ++ (before ++ .tick tick :: after))
    (hstop : (t.crew.after before).stopsIn tick = true) :
    (∀ d ∈ after, d = .command (tick.name, tick.args)) ∧
    t.run.1.seen endWatch = t.seen endWatch ++ [.interrupted, .told] ∧
    t.run.1.exec.phase = .interrupted ∧ t.run.1.exec.mayRun = false := by
  have hbegin := t.seen_scriptWatch_begin
  have hends : t.begin.seen endWatch = t.seen endWatch := by
    rw [seen_begin]
    cases t.exec.cleanupDue <;> exact List.append_nil _
  have hpeer : t.begin.exec.policy.peerFinished = false :=
    congrArg (fun c => c.policy.peerFinished) t.core_begin
  have hcrew : t.begin.crew = t.crew := congrArg₂ Crew.mk t.crew_begin.1 t.crew_begin.2
  obtain ⟨ds, hds⟩ := starts_run hr
  have hdeeds : .start :: ds = before ++ .tick tick :: after :=
    List.append_cancel_left (hds.symm.trans hseen)
  cases before with
  | nil => cases hdeeds
  | cons d before =>
    obtain ⟨rfl, hdeeds⟩ := List.cons.inj hdeeds
    have hrest : t.run.1.seen (scriptWatch true) =
        t.begin.seen (scriptWatch true) ++ (before ++ .tick tick :: after) := by
      rw [hds, hbegin, hdeeds, List.append_assoc]
      rfl
    rw [← hcrew] at hstop
    obtain ⟨hlast, hcut⟩ := stopsShort_run hr hrest hstop
    have hend := hcut.ends
    rw [hends, hpeer] at hend
    exact ⟨hlast, hend⟩

/-- The tick that stops a run in an operation is the last one of it. -/
theorem obey_stops (h : t.exec.Settled) (o : Order) {before after : List ScriptDeed} {tick : Tick}
    (hseen : (t.obey o).seen (scriptWatch o.isScripted) =
      t.seen (scriptWatch o.isScripted) ++ (before ++ .tick tick :: after))
    (hstop : (t.crew.after before).stopsIn tick = true) :
    (∀ d ∈ after, d = .command (tick.name, tick.args)) ∧
    (t.obey o).seen endWatch = t.seen endWatch ++ [.interrupted, .told] ∧
    (t.obey o).exec.phase =
      (if t.exec.isRunning && t.exec.policy.peerFinished then .idle else .interrupted) ∧
    (t.obey o).exec.mayRun = false := by
  -- Where no tick is made, none stops the run.
  have hsome : (t.obey o).seen (scriptWatch o.isScripted) ≠ t.seen (scriptWatch o.isScripted) := by
    rw [hseen]
    simp
  cases ho : o.mayTick with
  | false => exact absurd (obey_of_not_mayTick ho).1 hsome
  | true =>
    obtain ⟨dt, rfl⟩ | ⟨hs, ⟨-, hobey⟩ | ⟨hr, t', hobey, hexec, hscript, hends⟩⟩ :=
      t.obey_of_mayTick ho
    · cases hr : t.exec.isRunning with
      | false => exact absurd (congrArg (seen · _) (update_of_idle hr dt)) hsome
      | true =>
        obtain ⟨hlast, hcut⟩ := stopsShort_update h dt hseen hstop
        exact ⟨hlast, hcut.ends⟩
    · rw [hobey, hs] at hsome
      exact absurd t.seen_scriptWatch_rejected hsome
    · have hcrew : t'.crew = t.crew := by rw [crew, crew, hexec]
      rw [hobey, hs, ← hscript] at hseen
      rw [hobey, ← hends, hr]
      exact run_stops (hexec ▸ hr) hseen (hcrew ▸ hstop)

end Turn

/-! ## Waiting for the next update -/

/-- A run is in progress whose flag is cleared, and the other device is known to have finished or
not. -/
structure Executor.Cancelled {α : Type} (heard : Bool) (e : Executor α) : Prop where
  running : e.isRunning = true
  due : e.cleanupDue = false
  flag : e.mayRun = false
  heard : e.policy.peerFinished = heard

namespace Turn

variable {α : Type} {t t' : Turn α} {heard : Bool}

/-- What leaves the core of the executor as it is leaves a cancelled run cancelled. -/
theorem cancelled_of_same (h : t.exec.Cancelled heard) (hc : t'.exec.core = t.exec.core)
    (hm : t'.exec.mayRun = false) : t'.exec.Cancelled heard :=
  ⟨(congrArg Core.isRunning hc).trans h.running, (congrArg Core.cleanupDue hc).trans h.due, hm,
    (congrArg (fun c => c.policy.peerFinished) hc).trans h.heard⟩

variable [Avatar α]

/-- A run whose flag is cleared is in progress until time passes or it is ended. -/
theorem cancelled_obey (h : t.exec.Cancelled heard) {o : Order} (ho : o.leavesRun = true) :
    (t.obey o).exec.Cancelled (heard || o.isPeerEnd) ∧
      (t.obey o).seen endWatch = t.seen endWatch := by
  have hsame : ∀ {t' : Turn α}, t'.exec.core = t.exec.core → t'.exec.mayRun = false →
      t'.exec.Cancelled (heard || false) := fun hc hm =>
    (Bool.or_false heard).symm ▸ cancelled_of_same h hc hm
  have hrecord : ∀ {e : RunEvent}, endWatch.ofEvent e = [] →
      (t.record e).seen endWatch = t.seen endWatch := fun he => by
    rw [seen_record, he, List.append_nil]
  have hdispatch : ∀ name args remote,
      (t.dispatch name args remote).1.exec.Cancelled (heard || false) ∧
        (t.dispatch name args remote).1.seen endWatch = t.seen endWatch := by
    refine fun name args remote => ⟨hsame (t.core_dispatch _ _ _) ?_, ?_⟩
    · rw [mayRun_dispatch, h.flag, Bool.false_and]
    · exact (t.seen_dispatch _ _ _ _ alike_endWatch).trans (List.append_nil _)
  cases o with
  | lend s => exact ⟨hsame rfl h.flag, rfl⟩
  | run =>
    rw [show t.obey .run = t.record .runRejected from congrArg Prod.fst (if_pos h.running)]
    exact ⟨hsame rfl h.flag, hrecord rfl⟩
  | startTogether =>
    rw [show t.obey .startTogether = t.record .runRejected from
      congrArg Prod.fst (if_pos h.running)]
    exact ⟨hsame rfl h.flag, hrecord rfl⟩
  | issue name args => exact hdispatch name args false
  | abandon => cases ho
  | call c =>
    cases c with
    | update | interrupt => cases ho
    | release =>
      refine ⟨⟨h.running, h.due, h.flag, ?_⟩, hrecord rfl⟩
      exact h.heard.trans (Bool.or_false heard).symm
    | peerEnd =>
      have hend : t.afterPeerEnd =
          (t.record .peerFinished).setPolicy t.exec.policy.afterPeerEnd := by
        rw [afterPeerEnd]
        exact if_neg (Bool.eq_false_iff.mp h.due)
      rw [show t.obey (.call .peerEnd) = _ from hend]
      exact ⟨⟨h.running, h.due, h.flag, (Bool.or_true heard).symm⟩, hrecord rfl⟩
    | command name args => exact hdispatch name args true
    | clearFlag => exact ⟨hsame rfl rfl, rfl⟩

/-- The next update ends a run whose flag is cleared. -/
theorem cutShort_update (h : t.exec.Cancelled heard) (dt : Float32) : CutShort t (t.update dt) :=
  ⟨t.nextUpdate, .of_deeds rfl, rfl, update_of_cleared h.running h.flag dt⟩

end Turn

/-! ## Every career -/

/-- What the order has done for the script. -/
def Entry.scriptDeeds (e : Entry) : List ScriptDeed :=
  e.deeds.toList.filterMap (scriptWatch e.order.isScripted).see

/-- How the order has ended a run. -/
def Entry.endDeeds (e : Entry) : List EndDeed :=
  e.deeds.toList.filterMap endWatch.see

namespace Career

variable {α : Type}

/-- What was done for scripts in the career. -/
def scriptDeeds (c : Career α) : List ScriptDeed := c.past.flatMap Entry.scriptDeeds

/-- How runs have ended in the career. -/
def endDeeds (c : Career α) : List EndDeed := c.past.flatMap Entry.endDeeds

/-- The avatars of the device. -/
def crew (c : Career α) : Crew α := ⟨c.exec.own, c.exec.rival⟩

variable [Avatar α] (c : Career α)

/-- An order adds to the script deeds what its turn does for the script. -/
theorem scriptDeeds_obey (o : Order) : (c.obey o).scriptDeeds =
    c.scriptDeeds ++ ((c.exec.on c.script).obey o).seen (scriptWatch o.isScripted) := by
  simp [obey, scriptDeeds, Entry.scriptDeeds, Turn.seen]

/-- It adds to the ends what its turn has ended. -/
theorem endDeeds_obey (o : Order) : (c.obey o).endDeeds =
    c.endDeeds ++ ((c.exec.on c.script).obey o).seen endWatch := by
  simp [obey, endDeeds, Entry.endDeeds, Turn.seen]

variable {c}

/-- Nothing was done for a script since the flag was cleared, or the first thing that was done was
to start another run. -/
def StartsOver (c : Career α) : Prop :=
  c.scriptDeeds = [] ∧ c.exec.mayRun = false ∨ c.scriptDeeds.head? = some .start

/-- Whatever is ordered behind it, a career that starts over still does. -/
theorem startsOver_foldl (orders : List Order) : ∀ {c : Career α}, c.StartsOver →
    (orders.foldl obey c).StartsOver := by
  induction orders with
  | nil => exact id
  | cons o orders ih =>
    intro c h
    refine ih ?_
    unfold StartsOver
    rw [scriptDeeds_obey]
    obtain ⟨hnone, hm⟩ | hstart := h
    · rw [hnone, List.nil_append]
      refine (Turn.obey_of_cleared (t := c.exec.on c.script) hm o).imp id ?_
      rintro ⟨ds, hds⟩
      rw [hds]
      rfl
    · exact Or.inr (by rw [List.head?_append, hstart]; rfl)

/-- A run whose flag is cleared is in progress as long as no time passes and it is not ended. -/
theorem cancelled_foldl (orders : List Order) (ho : ∀ o ∈ orders, o.leavesRun = true) :
    ∀ {c : Career α} {heard : Bool}, c.exec.Cancelled heard →
      (orders.foldl obey c).exec.Cancelled (heard || orders.any Order.isPeerEnd) ∧
        (orders.foldl obey c).endDeeds = c.endDeeds := by
  induction orders with
  | nil =>
    intro c heard h
    exact ⟨(Bool.or_false heard).symm ▸ h, rfl⟩
  | cons o orders ih =>
    intro c heard h
    rw [List.forall_mem_cons] at ho
    obtain ⟨hcancelled, hends⟩ := Turn.cancelled_obey (t := c.exec.on c.script) h ho.1
    obtain ⟨hcancelled', hends'⟩ := ih ho.2 (c := c.obey o) hcancelled
    rw [List.any_cons, ← Bool.or_assoc]
    refine ⟨hcancelled', hends'.trans ?_⟩
    rw [endDeeds_obey, hends]
    exact List.append_nil _

/-- With the run flag cleared, the first thing that is done for a script is to start another run. -/
theorem starts_of_cleared {e : Executor α} (s : Script) (hm : e.mayRun = false)
    (later : List Order) : ∀ d ∈ (e.career s later).scriptDeeds.head?, d = .start := by
  intro d hd
  have h : StartsOver (⟨e, s, []⟩ : Career α) := Or.inl ⟨rfl, hm⟩
  obtain ⟨hnone, -⟩ | hstart := startsOver_foldl later h
  · rw [Executor.career, hnone] at hd
    cases hd
  · exact Option.some.inj (hd.symm.trans hstart)

/-- The tick that stops its run is the last one of its operation, and the operation ends the run. -/
theorem ends_of_stop {e : Executor α} (s : Script) (hsettled : e.Settled) (o : Order)
    {before after : List ScriptDeed} {tick : Tick}
    (hdeeds : (e.career s [o]).scriptDeeds = before ++ .tick tick :: after)
    (hstop : ((⟨e.own, e.rival⟩ : Crew α).after before).stopsIn tick = true) :
    (∀ d ∈ after, d = .command (tick.name, tick.args)) ∧
      (e.career s [o]).endDeeds = [.interrupted, .told] ∧
      (e.career s [o]).exec.phase = (if e.isRunning && e.policy.peerFinished then .idle
        else .interrupted) ∧
      (e.career s [o]).exec.mayRun = false := by
  have hscript : (e.career s [o]).scriptDeeds =
      ((e.on s).obey o).seen (scriptWatch o.isScripted) :=
    (scriptDeeds_obey _ o).trans (List.nil_append _)
  have hends : (e.career s [o]).endDeeds = ((e.on s).obey o).seen endWatch :=
    (endDeeds_obey _ o).trans (List.nil_append _)
  rw [hscript] at hdeeds
  rw [hends]
  exact Turn.obey_stops (t := e.on s) hsettled o hdeeds hstop

/-- The next update ends a run whose flag is cleared, however long it has been waiting for that. -/
theorem ends_of_update {e : Executor α} (s : Script) (hsettled : e.Settled)
    (hr : e.isRunning = true) (hm : e.mayRun = false) {waiting : List Order}
    (hw : ∀ o ∈ waiting, o.leavesRun = true) (dt : Float32) :
    (e.career s (waiting ++ [.call (.update dt)])).endDeeds = [.interrupted, .told] ∧
      (e.career s (waiting ++ [.call (.update dt)])).exec.phase =
        (if e.policy.peerFinished || waiting.any Order.isPeerEnd then .idle
          else .interrupted) := by
  obtain ⟨hunder, -⟩ := hsettled.halts_of_running hr
  have hc : e.Cancelled e.policy.peerFinished := ⟨hr, hunder.due, hm, rfl⟩
  obtain ⟨hcancelled, hends⟩ := cancelled_foldl waiting hw (c := ⟨e, s, []⟩) hc
  have hlast : e.career s (waiting ++ [.call (.update dt)]) =
      (e.career s waiting).obey (.call (.update dt)) := List.foldl_append
  obtain ⟨hend, hphase, -⟩ := (Turn.cutShort_update
    (t := (e.career s waiting).exec.on (e.career s waiting).script) hcancelled dt).ends
  rw [hlast, endDeeds_obey]
  refine ⟨?_, hphase.trans (by rw [← hcancelled.heard]; rfl)⟩
  rw [show (e.career s waiting).endDeeds = [] from hends, List.nil_append]
  exact hend

/-- At any time in the career of an executor :

* a command of the other device clears the run flag if an avatar stops the run at it, and anybody
  may clear it;
* with the run flag cleared, whatever orders follow, the first thing that is done for a script is to
  start another run;
* the tick that stops its run is the last one of the operation that makes it. All that is done for
  the script after it is to hand on its command, and the operation ends the run;
* the next update ends a run whose flag is cleared, whatever has happened until then that neither
  lets time pass nor ends the run.

A run ends interrupted, and tells the other device once. It is cleaned up at once if the other
device has finished. -/
theorem stops_once_cleared (role : Role) (mode : SyncMode) (timings : Timings) (wait : String)
    (own rival : α) (s : Script) (orders : List Order) :
    let c := (Executor.new role mode timings wait own rival).career s orders
    ((∀ name args, (c.obey (.call (.command name args))).exec.mayRun =
        (c.exec.mayRun && !c.crew.stops true (name, args))) ∧
      (c.obey (.call .clearFlag)).exec.mayRun = false) ∧
    (c.exec.mayRun = false → ∀ later : List Order,
      ∀ d ∈ (c.exec.career c.script later).scriptDeeds.head?, d = .start) ∧
    (∀ (o : Order) (before after : List ScriptDeed) (tick : Tick),
      let c' := c.exec.career c.script [o]
      c'.scriptDeeds = before ++ .tick tick :: after →
      (c.crew.after before).stopsIn tick = true →
        (∀ d ∈ after, d = .command (tick.name, tick.args)) ∧
        c'.endDeeds = [.interrupted, .told] ∧
        c'.exec.phase = (if c.exec.isRunning && c.exec.policy.peerFinished then .idle
          else .interrupted) ∧
        c'.exec.mayRun = false) ∧
    (c.exec.isRunning = true → c.exec.mayRun = false →
      ∀ waiting : List Order, (∀ o ∈ waiting, o.leavesRun = true) → ∀ dt : Float32,
        let c' := c.exec.career c.script (waiting ++ [.call (.update dt)])
        c'.endDeeds = [.interrupted, .told] ∧
        c'.exec.phase = (if c.exec.policy.peerFinished || waiting.any Order.isPeerEnd then .idle
          else .interrupted)) := by
  intro c
  have hsettled : c.exec.Settled := (kept role mode timings wait own rival s orders).settled
  refine ⟨⟨fun name args => (c.exec.on c.script).mayRun_dispatch name args true, rfl⟩,
    starts_of_cleared c.script, ?_, ?_⟩
  · intro o before after tick c' hdeeds hstop
    exact ends_of_stop c.script hsettled o hdeeds hstop
  · intro hr hm waiting hw dt c'
    exact ends_of_update c.script hsettled hr hm hw dt

/-- Two moves in the same direction. -/
def twoMoves (direction : String) : Script :=
  ⟨[.ofName "MOVE" [direction], .ofName "MOVE" [direction]]⟩

/-- An avatar with a trap to the east of its first cell. -/
def besideTrap : GridAvatar := .new .standard 6 false [(1, 0)] true

/-- The rival of that avatar. -/
def besideTrapAcross : GridAvatar := .new .standard 6 true [(4, 5)] false

/-- The first of two moves to the east ends on the trap, and the second one is not made. The second
one of two moves to the south waits for the other device when the run flag is cleared, and is not
made either. -/
theorem stops_once_cleared_on_trap :
    (let c := (Executor.new .master .stepSwitching .standard "Continue_Sec" besideTrap
        besideTrapAcross).career (twoMoves "EAST") []
      let c' := c.exec.career c.script [.run]
      let step : Tick := ⟨[0], "MOVE", ["EAST"], false⟩
      let after : List ScriptDeed := [.command ("MOVE", ["EAST"]), .command ("MOVE", ["EAST"])]
      (c'.scriptDeeds = [.start] ++ .tick step :: after ∧
        (c.crew.after [.start]).stopsIn step = true) ∧
      (∀ d ∈ after, d = .command (step.name, step.args)) ∧ c'.endDeeds = [.interrupted, .told] ∧
      c'.exec.phase = (if c.exec.isRunning && c.exec.policy.peerFinished then .idle
        else .interrupted) ∧ c'.exec.mayRun = false) ∧
    (let c := (Executor.new .master .stepSwitching .standard "Continue_Sec" besideTrap
        besideTrapAcross).career (twoMoves "SOUTH") [.run, .call .clearFlag]
      let waiting : List Order := [.run, .call .release, .call .peerEnd]
      let c' := c.exec.career c.script (waiting ++ [.call (.update 0.5)])
      (c.exec.isRunning = true ∧ c.exec.mayRun = false ∧ ∀ o ∈ waiting, o.leavesRun = true) ∧
      (∀ later : List Order, ∀ d ∈ (c.exec.career c.script later).scriptDeeds.head?, d = .start) ∧
      c'.endDeeds = [.interrupted, .told] ∧
      c'.exec.phase = (if c.exec.policy.peerFinished || waiting.any Order.isPeerEnd then .idle
        else .interrupted)) := by
  have heast := stops_once_cleared .master .stepSwitching .standard "Continue_Sec" besideTrap
    besideTrapAcross (twoMoves "EAST") []
  have hsouth := stops_once_cleared .master .stepSwitching .standard "Continue_Sec" besideTrap
    besideTrapAcross (twoMoves "SOUTH") [.run, .call .clearFlag]
  refine ⟨⟨⟨?_, ?_⟩, heast.2.2.1 .run [.start]
      [.command ("MOVE", ["EAST"]), .command ("MOVE", ["EAST"])]
        ⟨[0], "MOVE", ["EAST"], false⟩ ?_ ?_⟩,
    ⟨?_, ?_, ?_⟩, hsouth.2.1 ?_, hsouth.2.2.2 ?_ ?_ [.run, .call .release, .call .peerEnd] ?_ 0.5⟩
  all_goals decide +kernel

end Career

end Tandem
