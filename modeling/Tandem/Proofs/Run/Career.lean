import Tandem.Proofs.Run.Settled
import Tandem.Proofs.Run.Ticks

/-!
# The career of an executor

The host of an executor gives it one order after the other, in any sequence, and may lend it another
script at any time. A `Career` is what has come of that : the executor as it is now, and the deeds
of each order. It is told in marks (`Career.marks`), which are the deeds that have to do with the
beginning and the end of runs, and what runs send and make.

The marks of every career follow one grammar, the `History` of an executor : a run begins, works,
and then ends and says so once, or is abandoned; what it has left behind is cleaned up, and only
then another run begins (`Career.kept`). The executor itself is settled after every order. From this
follow the two main results :

* `Career.lifecycle` : the pieces of state that tell whether there is a run agree after every order;
* `Career.finish_once` : a run that is completed or interrupted tells the other device so exactly
  once, as the last thing it does.
-/

namespace Tandem

/-! ## Orders -/

/-- What the host of an executor may do. -/
inductive Order where
  /-- Another script is lent from now on, or the same one edited. -/
  | lend (s : Script)
  | run
  | startTogether
  /-- This device is given a command that is not one of its script. -/
  | issue (name : String) (args : List String)
  | abandon
  | call (c : Call)

namespace Order

/-- The order to give up any run. -/
def isAbandon : Order → Bool
  | abandon => true
  | _ => false

/-- Commands that are carried out for the order are those of the script. -/
def isScripted : Order → Bool
  | issue .. | call (.command ..) => false
  | _ => true

end Order

/-- The order is carried out. -/
def Turn.obey {α : Type} [Avatar α] (t : Turn α) : Order → Turn α
  | .lend s => { t with script := s }
  | .run => t.run.1
  | .startTogether => t.startTogether.1
  | .issue name args => (t.dispatch name args false).1
  | .abandon => t.abandon
  | .call c => t.serve c

/-! ## Marks -/

/-- What the career of an executor is told in. -/
inductive Mark where
  /-- It is shown whether there is a run. -/
  | shown (running : Bool)
  | start
  | tick
  /-- A command of the script is sent to the other device. -/
  | command
  | unlock
  /-- The run is completed or interrupted. -/
  | ended
  /-- The other device is told that the run has ended. -/
  | finish
  /-- The run is abandoned. -/
  | abandoned
deriving DecidableEq

namespace Mark

/-- The mark is one of a run at work. -/
def isWork : Mark → Bool
  | tick | command | unlock => true
  | _ => false

/-- What the mark shows, if it shows whether there is a run. -/
def shown? : Mark → Option Bool
  | shown running => some running
  | _ => none

end Mark

/-- Sees the marks, those of commands only if they are commands of the script. -/
def markWatch (scripted : Bool) : Watch Mark where
  see
    | .tick .. => some .tick
    | .event (.runStarted ..) => some .start
    | .event .completed | .event .interrupted => some .ended
    | .effect (.runShown running) => some (.shown running)
    | .effect (.sent .finish) => some .finish
    | .effect (.sent .unlock) => some .unlock
    | .effect (.sent (.command ..)) => if scripted then some .command else none
    | _ => none
  see_logged _ := rfl

/-- An order that was carried out. -/
structure Entry where
  order : Order
  /-- A run was in progress when the order came. -/
  inRun : Bool
  deeds : Array Deed

/-- The marks of an order. -/
def Entry.marks (e : Entry) : List Mark :=
  (if e.order.isAbandon && e.inRun then [.abandoned] else []) ++
    e.deeds.toList.filterMap (markWatch e.order.isScripted).see

/-- An executor, the script that it is lent, and the orders that it has carried out. -/
structure Career (α : Type) where
  exec : Executor α
  script : Script
  past : List Entry

namespace Career

variable {α : Type} [Avatar α]

/-- Another order is carried out. -/
def obey (c : Career α) (o : Order) : Career α :=
  let t := (c.exec.on c.script).obey o
  ⟨t.exec, t.script, c.past ++ [⟨o, c.exec.isRunning, t.deeds⟩]⟩

omit [Avatar α] in
/-- What the career is told in. -/
def marks (c : Career α) : List Mark :=
  c.past.flatMap Entry.marks

end Career

/-- The career of the executor through the orders. -/
def Executor.career {α : Type} [Avatar α] (e : Executor α) (s : Script) (orders : List Order) :
    Career α :=
  orders.foldl Career.obey ⟨e, s, []⟩

/-! ## The grammar of careers -/

/-- How far a run has come. -/
inductive RunStage where
  | idle
  | running
  /-- The run has ended, but is not cleaned up. -/
  | ended
deriving DecidableEq

/-- How far the run of an executor in that phase has come. -/
def Phase.stage : Phase → RunStage
  | .idle => .idle
  | .running | .waitingForPeer => .running
  | .completed | .interrupted => .ended

/-- The marks of a career that has come to that stage. -/
inductive History : RunStage → List Mark → Prop
  | new : History .idle []
  | start {ms : List Mark} :
    History .idle ms → History .running (ms ++ [.shown true, .start])
  | work {ms : List Mark} {m : Mark} :
    History .running ms → m.isWork = true → History .running (ms ++ [m])
  | finish {ms : List Mark} : History .running ms → History .ended (ms ++ [.ended, .finish])
  | abandon {ms : List Mark} :
    History .running ms → History .idle (ms ++ [.abandoned, .shown false])
  | cleanup {stage : RunStage} {ms : List Mark} :
    stage ≠ .running → History stage ms → History .idle (ms ++ [.shown false])

namespace History

/-- A run at work stays one. -/
theorem works {ms ms' : List Mark} (h : History .running ms) (hw : ∀ m ∈ ms', m.isWork = true) :
    History .running (ms ++ ms') := by
  induction ms' generalizing ms with
  | nil => rwa [List.append_nil]
  | cons m ms' ih =>
    rw [List.forall_mem_cons] at hw
    rw [← List.singleton_append, ← List.append_assoc]
    exact ih (h.work hw.1) hw.2

end History

/-- The marks of work are work. -/
theorem isWork_of_see {scripted : Bool} {d : Deed} {m : Mark} (hd : d.isWork = true)
    (h : (markWatch scripted).see d = some m) : m.isWork = true := by
  unfold markWatch at h
  dsimp only at h
  split at h
  · exact Option.some.inj h ▸ rfl
  · cases hd
  · cases hd
  · cases hd
  · cases hd
  · cases hd
  · exact Option.some.inj h ▸ rfl
  · split at h
    · exact Option.some.inj h ▸ rfl
    · cases h
  · cases h

/-! ## Every order follows the grammar -/

namespace Executor

variable {α : Type} {e : Executor α}

/-- An executor that has a run is in the stage of a run. -/
theorem stage_of_running (h : e.isRunning = true) : e.phase.stage = .running := by
  unfold isRunning at h
  cases hp : e.phase <;> simp_all [Phase.stage]

theorem stage_of_not_running (h : e.isRunning = false) : e.phase.stage ≠ .running := by
  unfold isRunning at h
  cases hp : e.phase <;> simp_all [Phase.stage]

/-- An executor that rests and has nothing to clean up is idle. -/
theorem stage_of_not_due (h : e.core.Rests) (hd : e.cleanupDue = false) :
    e.phase.stage = .idle := by
  have hr := h.isRunning
  have hdue := h.due
  simp only [core, Core.isRunning] at hr hdue
  cases hp : e.phase <;> simp_all [Phase.stage]

end Executor

namespace Turn

variable {α : Type}

/-- After those marks and those of its deeds, the turn has come to the stage that its executor is
in, and is settled. -/
structure Kept (scripted : Bool) (ms : List Mark) (t : Turn α) : Prop where
  settled : t.exec.Settled
  history : History t.exec.phase.stage (ms ++ t.seen (markWatch scripted))

variable {scripted : Bool} {ms : List Mark} {t t' : Turn α}

/-- Work in a run leaves the marks of a run. -/
theorem history_works (h : History .running (ms ++ t.seen (markWatch scripted)))
    (hw : Works t t') : History .running (ms ++ t'.seen (markWatch scripted)) := by
  obtain ⟨ds, hds, hwork⟩ := hw
  rw [seen, hds, List.filterMap_append, ← List.append_assoc]
  refine h.works fun m hm => ?_
  obtain ⟨d, hd, hsee⟩ := List.mem_filterMap.mp hm
  exact isWork_of_see (hwork d hd) hsee

theorem ofCleanup_markWatch : (markWatch scripted).ofCleanup = [.shown false] := rfl

theorem ofEnd_markWatch {outcome : Phase} (h : outcome = .completed ∨ outcome = .interrupted)
    (last : Bool) : (markWatch scripted).ofEnd outcome last =
      [.ended, .finish] ++ if last then [.shown false] else [] := by
  obtain rfl | rfl := h <;> cases last <;> rfl

/-- When a run ends, its end is the next mark, and its cleanup if that is not put off. -/
theorem history_finish {outcome : Phase} (ho : outcome = .completed ∨ outcome = .interrupted)
    (h : History .running (ms ++ t.seen (markWatch scripted))) :
    History (t.finish outcome).exec.phase.stage
      (ms ++ (t.finish outcome).seen (markWatch scripted)) := by
  have hp : (t.finish outcome).exec.phase = (t.exec.core.ended outcome).phase :=
    congrArg Core.phase (t.core_finish outcome)
  rw [hp, seen_finish, ofEnd_markWatch ho, ← List.append_assoc, ← List.append_assoc, Core.ended]
  dsimp only
  -- A run that ends after the other device has ended is cleaned up at once.
  cases hh : t.exec.policy.peerFinished with
  | true =>
    rw [if_pos (show t.exec.core.policy.stop.peerFinished = true from hh), if_pos rfl]
    exact .cleanup (by decide) h.finish
  | false =>
    rw [if_neg (Bool.eq_false_iff.mp (show t.exec.core.policy.stop.peerFinished = false from hh)),
      if_neg Bool.false_ne_true, List.append_nil]
    obtain rfl | rfl := ho
    · exact h.finish
    · exact h.finish

/-- A run that goes on to a halt or to its end keeps the grammar. -/
theorem kept_runsTo (h : History .running (ms ++ t.seen (markWatch scripted)))
    (hr : RunsTo t t') : t'.Kept scripted ms := by
  refine ⟨hr.settled, ?_⟩
  cases hr with
  | halts hw _ hh =>
    rw [Executor.stage_of_running hh.isRunning]
    exact history_works h hw
  | ends hw ho => exact history_finish ho (history_works h hw)

theorem kept_cleanup (hm : t.exec.mayRun = false) (hs : t.exec.phase.stage ≠ .running)
    (h : History t.exec.phase.stage (ms ++ t.seen (markWatch scripted))) :
    t.cleanup.Kept scripted ms := by
  refine ⟨settled_cleanup hm, ?_⟩
  have hp : t.cleanup.exec.phase = .idle := congrArg Core.phase t.core_cleanup
  rw [hp, seen_cleanup, ofCleanup_markWatch, ← List.append_assoc]
  exact .cleanup hs h

/-- What leaves the run as it is, and makes no marks, keeps to the grammar. -/
theorem Kept.of_same (h : t.Kept scripted ms) (hc : t'.exec.core = t.exec.core)
    (hs : t.exec.Still → t'.exec.Still)
    (hm : t'.seen (markWatch scripted) = t.seen (markWatch scripted)) : t'.Kept scripted ms := by
  refine ⟨settled_of_same h.settled hc hs, ?_⟩
  rw [hm, show t'.exec.phase = t.exec.phase from congrArg Core.phase hc]
  exact h.history

theorem Kept.record (h : t.Kept scripted ms) {e : RunEvent}
    (he : (markWatch scripted).ofEvent e = []) : (t.record e).Kept scripted ms :=
  h.of_same rfl (fun hs => ⟨hs.mayRun, hs.shownTop, hs.shownChild⟩)
    (by rw [seen_record, he, List.append_nil])

theorem kept_afterRelease (h : t.Kept scripted ms) : t.afterRelease.Kept scripted ms := by
  refine ⟨settled_afterRelease h.settled, ?_⟩
  rw [seen_afterRelease, show (markWatch scripted).ofEvent .unlockReceived = [] from rfl,
    List.append_nil]
  exact h.history

theorem kept_afterPeerEnd (h : t.Kept scripted ms) : t.afterPeerEnd.Kept scripted ms := by
  have hseen := t.seen_record (markWatch scripted) .peerFinished
  rw [show (markWatch scripted).ofEvent .peerFinished = [] from rfl, List.append_nil] at hseen
  refine ⟨settled_afterPeerEnd h.settled, ?_⟩
  unfold afterPeerEnd
  dsimp only
  split
  · next hd =>
    cases h.settled with
    | rests hr hs =>
      have hhistory := h.history
      rw [← hseen] at hhistory
      exact (kept_cleanup (t := (t.record .peerFinished).setPolicy t.exec.policy.afterPeerEnd)
        hs.mayRun (Executor.stage_of_not_running hr.isRunning) hhistory).history
    | halts hu => cases hu.due.symm.trans hd
  · have hhistory := h.history
    rw [← hseen] at hhistory
    exact hhistory

variable [Avatar α]

omit [Avatar α] in
/-- A run begins once what the run before it has left behind is cleaned up. -/
theorem history_begin (hr : t.exec.isRunning = false) (h : t.Kept scripted ms) :
    History .running (ms ++ t.begin.seen (markWatch scripted)) := by
  have hh := h.history
  have hstart : (markWatch scripted).ofStart t.exec.policy.mode t.exec.policy.role
      t.script.clearRunning.length = [.shown true, .start] := rfl
  rw [seen_begin, hstart, ofCleanup_markWatch, ← List.append_assoc, ← List.append_assoc]
  refine .start ?_
  cases hd : t.exec.cleanupDue with
  | true =>
    rw [if_pos rfl]
    exact .cleanup (Executor.stage_of_not_running hr) hh
  | false =>
    obtain ⟨hrest, -⟩ := h.settled.rests_of_not_running hr
    rw [if_neg Bool.false_ne_true, List.append_nil]
    rwa [Executor.stage_of_not_due hrest hd] at hh

theorem kept_run (h : t.Kept scripted ms) : t.run.1.Kept scripted ms := by
  cases hr : t.exec.isRunning with
  | true =>
    rw [run, hr]
    exact h.record rfl
  | false => exact kept_runsTo (history_begin hr h) (runsTo_run hr)

theorem kept_startTogether (h : t.Kept scripted ms) : t.startTogether.1.Kept scripted ms := by
  unfold startTogether
  split
  · exact h.record rfl
  · refine kept_run (h.of_same rfl (fun hs => ⟨hs.mayRun, hs.shownTop, hs.shownChild⟩) ?_)
    rw [seen_send]
    exact List.append_nil _

theorem kept_update (h : t.Kept scripted ms) (dt : Float32) : (t.update dt).Kept scripted ms := by
  cases hr : t.exec.isRunning with
  | true =>
    obtain ⟨hu, hh⟩ := h.settled.halts_of_running hr
    have hstage := h.history
    rw [Executor.stage_of_running hr] at hstage
    exact kept_runsTo hstage (runsTo_update hu hh dt)
  | false =>
    rw [update, hr]
    exact h

omit [Avatar α] in
theorem kept_interrupt (h : t.Kept scripted ms) : t.interrupt.Kept scripted ms := by
  unfold interrupt
  split
  · next hr =>
    have hstage := h.history
    rw [Executor.stage_of_running hr] at hstage
    exact kept_runsTo hstage (.ends (.refl t) (Or.inr rfl))
  · exact h

/-- Commands that are not those of the script make no marks. -/
theorem kept_dispatch (h : t.Kept false ms) (name : String) (args : List String) (remote : Bool) :
    (t.dispatch name args remote).1.Kept false ms := by
  have hw : (markWatch false).TakesCommandsAlike :=
    ⟨fun _ _ _ _ => rfl, fun _ _ => rfl, fun _ _ => rfl, fun _ _ => rfl⟩
  refine h.of_same (t.core_dispatch name args remote) (still_dispatch · name args remote) ?_
  rw [seen_dispatch _ _ _ _ _ hw]
  exact List.append_nil _

theorem kept_serve {call : Call} (hs : scripted = true → Order.isScripted (.call call) = true)
    (h : t.Kept scripted ms) : (t.serve call).Kept scripted ms := by
  cases call with
  | update dt => exact kept_update h dt
  | release => exact kept_afterRelease h
  | peerEnd => exact kept_afterPeerEnd h
  | command name args =>
    cases scripted with
    | true => cases hs rfl
    | false => exact kept_dispatch h name args true
  | interrupt => exact kept_interrupt h
  | clearFlag => exact h.of_same rfl (fun hs => ⟨rfl, hs.shownTop, hs.shownChild⟩) rfl

omit [Avatar α] in
theorem seen_abandon : t.abandon.seen (markWatch scripted) =
    t.seen (markWatch scripted) ++ [.shown false] := by
  rw [abandon, seen_cleanup, seen_record, ofCleanup_markWatch]
  exact congrArg (· ++ [Mark.shown false]) (List.append_nil _)

end Turn

namespace Career

variable {α : Type}

/-- The career follows the grammar, its executor is settled, and no run that was abandoned has told
the other device of its end. -/
structure Kept (c : Career α) : Prop where
  settled : c.exec.Settled
  history : History c.exec.phase.stage c.marks
  silent : ∀ e ∈ c.past, e.order.isAbandon = true → .effect (.sent .finish) ∉ e.deeds

variable [Avatar α] {c : Career α}

/-- An order adds the marks of its turn, and that of a run that is abandoned. -/
theorem marks_obey (c : Career α) (o : Order) : (c.obey o).marks = c.marks ++
    ((if o.isAbandon && c.exec.isRunning then [.abandoned] else []) ++
      ((c.exec.on c.script).obey o).seen (markWatch o.isScripted)) := by
  simp [obey, marks, Entry.marks, Turn.seen]

/-- Orders other than that to give up keep to the grammar. -/
theorem Kept.turn_obey (h : c.Kept) {o : Order} (ho : o.isAbandon = false) :
    ((c.exec.on c.script).obey o).Kept o.isScripted c.marks := by
  have ht : ∀ scripted, (c.exec.on c.script).Kept scripted c.marks :=
    fun _ => ⟨h.settled, by rw [Turn.seen]; exact (List.append_nil c.marks).symm ▸ h.history⟩
  cases o with
  | lend s => exact ⟨(ht true).settled, (ht true).history⟩
  | run => exact Turn.kept_run (ht true)
  | startTogether => exact Turn.kept_startTogether (ht true)
  | issue name args => exact Turn.kept_dispatch (ht false) name args false
  | abandon => cases ho
  | call call => exact Turn.kept_serve id (ht _)

/-- To abandon a run is an end of its own in the grammar. -/
theorem Kept.history_abandon (h : c.Kept) :
    History (c.obey .abandon).exec.phase.stage (c.obey .abandon).marks := by
  have hp : (c.obey .abandon).exec.phase = .idle := rfl
  have hseen : ((c.exec.on c.script).obey .abandon).seen (markWatch Order.abandon.isScripted) =
      [.shown false] := Turn.seen_abandon
  rw [hp, marks_obey, hseen]
  have hh := h.history
  cases hr : c.exec.isRunning with
  | true =>
    rw [Executor.stage_of_running hr] at hh
    exact hh.abandon
  | false => exact .cleanup (Executor.stage_of_not_running hr) hh

/-- Every order keeps the grammar. -/
theorem Kept.obey (h : c.Kept) (o : Order) : (c.obey o).Kept := by
  cases ho : o.isAbandon with
  | false =>
    have ht := h.turn_obey ho
    refine ⟨ht.settled, ?_, ?_⟩
    · rw [marks_obey, ho]
      exact ht.history
    · intro e he
      obtain he | he := List.mem_append.mp he
      · exact h.silent e he
      · rw [List.mem_singleton.mp he]
        exact fun ho' => absurd (ho.symm.trans ho') Bool.false_ne_true
  | true =>
    obtain rfl : o = .abandon := by cases o <;> first | rfl | cases ho
    refine ⟨Turn.settled_cleanup rfl, h.history_abandon, ?_⟩
    intro e he
    obtain he | he := List.mem_append.mp he
    · exact h.silent e he
    · rw [List.mem_singleton.mp he]
      intro _ hf
      have hm : Mark.finish ∈ (c.exec.on c.script).abandon.seen (markWatch true) :=
        List.mem_filterMap.mpr ⟨_, Array.mem_toList_iff.mpr hf, rfl⟩
      rw [Turn.seen_abandon] at hm
      cases List.mem_singleton.mp hm

/-- Whatever orders it is given, a new executor keeps to the grammar. -/
theorem kept (role : Role) (mode : SyncMode) (timings : Timings) (wait : String) (own rival : α)
    (s : Script) (orders : List Order) :
    ((Executor.new role mode timings wait own rival).career s orders).Kept := by
  have h : ∀ (orders : List Order) {c : Career α}, c.Kept → (orders.foldl Career.obey c).Kept := by
    intro orders
    induction orders with
    | nil => exact fun h => h
    | cons o orders ih => exact fun h => ih (h.obey o)
  exact h orders ⟨Executor.settled_new role mode timings wait own rival, .new, nofun⟩

end Career

end Tandem
