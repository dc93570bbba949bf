import Tandem.Proofs.Run.Career
import Tandem.Proofs.Run.LogLines

/-!
# What an executor writes in each update of its log

The log of an executor begins another update when time passes in a run and when a run starts, and at
no other order (`Turn.passage_obey`). Time that passes without a run begins none. So what a device
records while it has no run, be it one event at a time, counts towards the update that began last,
and after the first hundred events it writes nothing more until a run starts
(`Career.silent_without_run`).

What holds at every moment is `Career.mirrors_updates` : of the events of the update that began
last, the first ones are written and then the warning, and from any order that began an update on,
events are all written as long as there are no more than that.
-/

namespace Tandem

/-- Another update of the log begins with the order : that time passes begins one in a run, and to
start a run begins one if there is none. -/
def Order.beginsUpdate (inRun : Bool) : Order → Bool
  | run | startTogether => !inRun
  | call (.update _) => inRun
  | _ => false

namespace Turn

variable {α : Type} {t t' : Turn α} {source : String} {es : List RunEvent} {ls : List LogLine}

/-- To record an event writes the lines of the log for it. -/
theorem lines_record (t : Turn α) (e : RunEvent) :
    (t.record e).lines = t.lines ++ (t.exec.log.record e).2 := by
  have hwritten : ((t.exec.log.record e).2.map fun line => Deed.effect (.logged line)).filterMap
      Deed.line? = (t.exec.log.record e).2 := by
    rw [List.filterMap_map]
    exact List.filterMap_some
  rw [lines, deeds_record, List.filterMap_append]
  exact congrArg (_ ++ ·) hwritten

/-- With the events and lines from before the turn, the log has written those of its update. -/
def Writes (source : String) (es : List RunEvent) (ls : List LogLine) (t : Turn α) : Prop :=
  EventLog.Written source (es ++ t.events) (ls ++ t.lines) t.exec.log

namespace Writes

/-- What leaves the log, the events and the lines alone writes nothing. -/
theorem of_same (h : t.Writes source es ls) (hlog : t'.exec.log = t.exec.log)
    (hevents : t'.events = t.events) (hlines : t'.lines = t.lines) : t'.Writes source es ls := by
  rw [Writes, hlog, hevents, hlines]
  exact h

theorem mapExec (h : t.Writes source es ls) (f : Executor α → Executor α)
    (hlog : (f t.exec).log = t.exec.log) : (t.mapExec f).Writes source es ls :=
  h.of_same hlog rfl rfl

theorem emit (h : t.Writes source es ls) {e : Effect} (he : e.line? = none) :
    (t.emit e).Writes source es ls := by
  refine h.of_same rfl ((t.seen_emit eventWatch e).trans (List.append_nil _)) ?_
  rw [lines_emit, he]
  exact List.append_nil _

/-- An event that is recorded is written as the log has it. -/
theorem record (h : t.Writes source es ls) (e : RunEvent) : (t.record e).Writes source es ls := by
  rw [Writes, events_record, lines_record, ← List.append_assoc, ← List.append_assoc]
  exact EventLog.Written.record h e

variable [Avatar α]

theorem perform (h : t.Writes source es ls) (name : String) (args : List String)
    (remote : Bool) : (t.perform name args remote).1.Writes source es ls := by
  have hown : ∀ {t : Turn α}, t.Writes source es ls →
      (t.performOwn name args).1.Writes source es ls :=
    fun h => (h.mapExec _ rfl).emit rfl
  have hrival : ∀ {t : Turn α}, t.Writes source es ls →
      (t.performRival name args).1.Writes source es ls :=
    fun h => (h.mapExec _ rfl).emit rfl
  unfold Turn.perform
  split
  · exact hrival (hown h)
  · split
    · exact hrival h
    · exact hown h

theorem dispatch (h : t.Writes source es ls) (name : String) (args : List String)
    (remote : Bool) : (t.dispatch name args remote).1.Writes source es ls := by
  unfold Turn.dispatch
  dsimp only
  split
  · exact h.record _
  · cases remote with
    | true => exact (h.perform name args true).record _
    | false => exact ((h.perform name args false).record _).emit rfl

end Writes

variable [Avatar α]

/-- Whatever an executor does, its log writes what it records. -/
theorem Passage.writes (h : Passage t t') (ht : t.Writes source es ls) :
    t'.Writes source es ls := by
  induction h with
  | quiet hq => exact ht.of_same hq.log hq.seen hq.lines
  | record e _ => exact ht.record e
  | dispatch name args remote => exact ht.dispatch name args remote
  | trans _ _ ih ih' => exact ih' (ih ht)

/-- An order that begins another update does so before all else. -/
theorem passage_obey (t : Turn α) (o : Order) :
    Passage (t.nextUpdateIf (o.beginsUpdate t.exec.isRunning)) (t.obey o) := by
  cases o with
  | lend s => exact .quiet ⟨rfl, rfl, rfl, rfl, rfl, fun _ => rfl⟩
  | run => exact t.passage_run
  | startTogether => exact t.passage_startTogether
  | issue name args => exact .dispatch name args false
  | abandon => exact t.passage_abandon
  | call c =>
    cases c with
    | update dt => exact t.passage_update dt
    | release => exact t.passage_afterRelease
    | peerEnd => exact t.passage_afterPeerEnd
    | command name args => exact .dispatch name args true
    | interrupt => exact t.passage_interrupt
    | clearFlag => exact t.passage_mapExec Executor.clearFlag rfl rfl rfl

end Turn

/-! ## The host of an executor -/

/-- What the host of an executor may do with it. -/
inductive Errand where
  | order (o : Order)
  /-- It takes the events that are kept. -/
  | drain

namespace Entry

/-- The events recorded. -/
def events (en : Entry) : List RunEvent :=
  en.deeds.toList.filterMap eventWatch.see

/-- The lines written. -/
def lines (en : Entry) : List LogLine :=
  en.deeds.toList.filterMap Deed.line?

/-- The events recorded in the entries. -/
def allEvents (ens : List Entry) : List RunEvent := ens.flatMap events

/-- The lines written in the entries. -/
def allLines (ens : List Entry) : List LogLine := ens.flatMap lines

theorem allEvents_append (ens ens' : List Entry) :
    allEvents (ens ++ ens') = allEvents ens ++ allEvents ens' :=
  List.flatMap_append

theorem allLines_append (ens ens' : List Entry) :
    allLines (ens ++ ens') = allLines ens ++ allLines ens' :=
  List.flatMap_append

/-- The line of each event is written, in order, and no other line. -/
def AllMirrored (source : String) (ens : List Entry) : Prop :=
  allLines ens = (allEvents ens).map fun e => (EventLog.new source).line e.level e.sentence

namespace AllMirrored

variable {source : String} {ens ens' : List Entry}

/-- Histories that are mirrored are so together. -/
theorem append (h : AllMirrored source ens) (h' : AllMirrored source ens') :
    AllMirrored source (ens ++ ens') := by
  rw [AllMirrored, allLines_append, allEvents_append, List.map_append, h, h']

/-- If the front of a mirrored history is mirrored, so is the rest. -/
theorem of_append (h : AllMirrored source (ens ++ ens')) (hfront : AllMirrored source ens) :
    AllMirrored source ens' := by
  rw [AllMirrored, allLines_append, allEvents_append, List.map_append, hfront] at h
  exact List.append_cancel_left h

/-- No more events than a log writes lines for are all mirrored. -/
theorem of_written {l : EventLog}
    (h : EventLog.Written source (allEvents ens) (allLines ens) l)
    (hfew : (allEvents ens).length ≤ EventLog.lineCap.toNat) : AllMirrored source ens := by
  have hword : EventLog.lineCap.toNat < UInt32.size := by decide
  exact (h.lines (Nat.lt_of_le_of_lt hfew hword)).trans (EventLog.mirrored_of_le hfew)

end AllMirrored

/-- Another update of the log began with the order. -/
def beginsUpdate (en : Entry) : Bool :=
  en.order.beginsUpdate en.inRun

/-- The last entries, from the one on that an update of the log began with. -/
def lastUpdate (past : List Entry) : List Entry :=
  past.foldl (fun update en => if en.beginsUpdate then [en] else update ++ [en]) []

/-- An entry belongs to the last update, unless it begins another one. -/
theorem lastUpdate_concat (past : List Entry) (en : Entry) : lastUpdate (past ++ [en]) =
    if en.beginsUpdate then [en] else lastUpdate past ++ [en] :=
  List.foldl_concat _ _ _ _

/-- The last update stands at the end of the history. -/
theorem lastUpdate_suffix (past : List Entry) : lastUpdate past <:+ past := by
  induction past using List.reverseRecOn with
  | nil => exact List.suffix_rfl
  | append_singleton past en ih =>
    rw [lastUpdate_concat]
    split
    · exact List.suffix_append past [en]
    · obtain ⟨front, hfront⟩ := ih
      exact ⟨front, by rw [← List.append_assoc, hfront]⟩

/-- What came before an update does not matter to it and to the updates after it. -/
theorem lastUpdate_append (past : List Entry) {en : Entry} (h : en.beginsUpdate = true)
    (later : List Entry) : lastUpdate (past ++ en :: later) = lastUpdate (en :: later) := by
  simp [lastUpdate, h]

end Entry

namespace Career

open Entry

variable {α : Type}

/-- The career once its host has done something more. -/
def attend [Avatar α] (c : Career α) : Errand → Career α
  | .order o => c.obey o
  | .drain => { c with exec := c.exec.drain.2 }

/-- The log has written what it writes of the update that began last, and as long as no more events
than a log writes lines for came after an update began, it has written the lines of them all. -/
structure Mirrors (source : String) (c : Career α) : Prop where
  written : EventLog.Written source (allEvents (lastUpdate c.past)) (allLines (lastUpdate c.past))
    c.exec.log
  mirrored : ∀ front en later, c.past = front ++ en :: later → en.beginsUpdate = true →
    (allEvents (en :: later)).length ≤ EventLog.lineCap.toNat → AllMirrored source (en :: later)

variable [Avatar α] {c : Career α} {source : String}

/-- What an order makes of the last update is written as it should be. -/
theorem Mirrors.written_obey (h : c.Mirrors source) (o : Order) :
    EventLog.Written source (allEvents (lastUpdate (c.obey o).past))
      (allLines (lastUpdate (c.obey o).past)) (c.obey o).exec.log := by
  have hpast : (c.obey o).past =
      c.past ++ [⟨o, c.exec.isRunning, ((c.exec.on c.script).obey o).deeds⟩] := rfl
  have hpassage : Turn.Passage
      ((c.exec.on c.script).nextUpdateIf (o.beginsUpdate c.exec.isRunning))
      ((c.exec.on c.script).obey o) := (c.exec.on c.script).passage_obey o
  rw [hpast, lastUpdate_concat, Entry.beginsUpdate]
  cases hb : o.beginsUpdate c.exec.isRunning with
  | true =>
    rw [hb] at hpassage
    have hstart : (c.exec.on c.script).nextUpdate.Writes source [] [] :=
      EventLog.written_nextUpdate h.written.named
    rw [if_pos rfl, allEvents, allLines, List.flatMap_singleton, List.flatMap_singleton]
    exact hpassage.writes hstart
  | false =>
    rw [hb] at hpassage
    have hstart : (c.exec.on c.script).Writes source (allEvents (lastUpdate c.past))
        (allLines (lastUpdate c.past)) := by
      rw [Turn.Writes, show (c.exec.on c.script).events = [] from rfl,
        show (c.exec.on c.script).lines = [] from rfl, List.append_nil, List.append_nil]
      exact h.written
    rw [if_neg Bool.false_ne_true, allEvents_append, allLines_append, allEvents.eq_def [_],
      allLines.eq_def [_], List.flatMap_singleton, List.flatMap_singleton]
    exact hpassage.writes hstart

/-- Every order keeps the mirror. -/
theorem Mirrors.obey (h : c.Mirrors source) (o : Order) : (c.obey o).Mirrors source := by
  have hwritten := h.written_obey o
  refine ⟨hwritten, fun front en later hpast hbegins hfew => ?_⟩
  generalize hnew : (⟨o, c.exec.isRunning, ((c.exec.on c.script).obey o).deeds⟩ : Entry) = new
  have hconcat : (c.obey o).past = c.past ++ [new] := by rw [← hnew]; rfl
  rw [hconcat, lastUpdate_concat] at hwritten
  rw [hconcat] at hpast
  obtain rfl | ⟨later, last, rfl⟩ := List.eq_nil_or_concat' later
  · obtain ⟨-, hlast⟩ := List.append_inj' hpast rfl
    obtain rfl := List.singleton_inj.mp hlast
    rw [if_pos hbegins] at hwritten
    exact .of_written hwritten hfew
  · rw [← List.cons_append, ← List.append_assoc] at hpast
    obtain ⟨hbefore, hlast⟩ := List.append_inj' hpast rfl
    obtain rfl := List.singleton_inj.mp hlast
    rw [← List.cons_append, allEvents_append, List.length_append] at hfew
    refine (h.mirrored front en later hbefore hbegins (by omega)).append ?_
    -- The events of the new entry are among the first ones of the update that it belongs to.
    split at hwritten
    · exact .of_written hwritten (by omega)
    · obtain ⟨earlier, hsuffix⟩ := lastUpdate_suffix (en :: later)
      have hcurrent := h.written
      rw [hbefore, lastUpdate_append front hbegins] at hcurrent hwritten
      rw [← hsuffix, allEvents_append, List.length_append] at hfew
      refine (AllMirrored.of_written hwritten ?_).of_append (.of_written hcurrent (by omega))
      rw [allEvents_append, List.length_append]
      omega

theorem Mirrors.attend (h : c.Mirrors source) (errand : Errand) :
    (c.attend errand).Mirrors source := by
  cases errand with
  | order o => exact h.obey o
  | drain => exact ⟨h.written.drain, h.mirrored⟩

/-! ## Any history -/

/-- Whatever a new executor is given to do, and whenever the events kept are taken from it : of the
events that were recorded since an update of its log began last, the lines of the first ones are
written, in order, and then the warning if there are more. So from any order that began an update
on, such as that time passes in a run, every event is mirrored as long as no more than 100 events
are recorded. -/
theorem mirrors_updates (role : Role) (mode : SyncMode) (timings : Timings) (wait : String)
    (own rival : α) (script : Script) (errands : List Errand) :
    let c := errands.foldl attend ⟨.new role mode timings wait own rival, script, []⟩
    ((allEvents (lastUpdate c.past)).length < UInt32.size →
      allLines (lastUpdate c.past) =
        EventLog.mirrored role.name (allEvents (lastUpdate c.past))) ∧
    ∀ front en later, c.past = front ++ en :: later → en.beginsUpdate = true →
      (allEvents (en :: later)).length ≤ 100 → AllMirrored role.name (en :: later) := by
  intro c
  have hmirrors : ∀ (errands : List Errand) {c : Career α}, c.Mirrors role.name →
      (errands.foldl attend c).Mirrors role.name := by
    intro errands
    induction errands with
    | nil => exact fun h => h
    | cons errand errands ih => exact fun h => ih (h.attend errand)
  have h : c.Mirrors role.name := by
    refine hmirrors errands ⟨⟨rfl, rfl, fun _ => rfl, fun _ => rfl⟩, fun front en later hpast => ?_⟩
    exact absurd hpast.symm (List.append_ne_nil_of_right_ne_nil _ (List.cons_ne_nil _ _))
  exact ⟨h.written.lines, h.mirrored⟩

/-- A device in a run is released twice between two updates, and the events that it keeps are taken
in between. -/
theorem mirrors_updates_in_spiral :
    let c := [.order .run, .order (.call (.update 0.5)), .order (.call .release), .drain,
      .order (.call .release), .order (.call (.update 0.5))].foldl attend
        ⟨Turn.freeDevice, Turn.spiral, []⟩
    (c.past.drop 1).head?.any beginsUpdate = true ∧
    (allEvents (c.past.drop 1)).length ≤ 100 ∧
    AllMirrored "master" (c.past.drop 1) ∧
    (allLines (c.past.drop 1)).map (·.text) =
      ["[master] L1 MOVE", "[master] Dispatched MOVE(SOUTH) to local avatar",
        "[master] Received UNLOCK", "[master] Received UNLOCK",
        "[master] L1 Continue_Sec (wait tick)"] := by
  intro c
  have hbegins : (c.past.drop 1).head?.any beginsUpdate = true := by decide +kernel
  have hfew : (allEvents (c.past.drop 1)).length ≤ 100 := by decide +kernel
  have hlines : (allLines (c.past.drop 1)).map (·.text) =
      ["[master] L1 MOVE", "[master] Dispatched MOVE(SOUTH) to local avatar",
        "[master] Received UNLOCK", "[master] Received UNLOCK",
        "[master] L1 Continue_Sec (wait tick)"] := by decide +kernel
  refine ⟨hbegins, hfew, ?_, hlines⟩
  obtain ⟨en, later, hsplit⟩ := List.exists_cons_of_ne_nil
    (List.isEmpty_eq_false_iff.mp (show (c.past.drop 1).isEmpty = false by decide +kernel))
  have hpast : c.past = c.past.take 1 ++ en :: later := by rw [← hsplit, List.take_append_drop]
  rw [hsplit] at hbegins hfew ⊢
  exact (mirrors_updates .master .async _ _ _ _ Turn.spiral _).2 _ en later hpast hbegins hfew

/-- Time passes 101 times for a device that has no run, and it is released once after each. That is
one event at a time, but the last one is not mirrored : no update of the log has ever begun. -/
theorem silent_without_run :
    let c := Turn.freeDevice.career .empty
      (List.replicate 101 [.call (.update 0.1), .call .release]).flatten
    (∀ en ∈ c.past, en.events.length ≤ 1) ∧
    allEvents (c.past.drop 200) = [.unlockReceived] ∧
    ¬AllMirrored "master" (c.past.drop 200) ∧
    allLines (c.past.drop 200) =
      [⟨.warn, "[master] Run log limit exceeded (100 messages/update). Further logs dropped."⟩] := by
  intro c
  have hevents : allEvents (c.past.drop 200) = [.unlockReceived] := by decide +kernel
  have hlines : allLines (c.past.drop 200) =
      [⟨.warn, "[master] Run log limit exceeded (100 messages/update). Further logs dropped."⟩] := by
    decide +kernel
  refine ⟨by decide +kernel, hevents, fun hall => ?_, hlines⟩
  rw [AllMirrored, hlines, hevents] at hall
  exact absurd hall (by decide +kernel)

end Career

end Tandem
