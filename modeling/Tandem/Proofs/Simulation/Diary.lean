import Tandem.Proofs.Run.Aside
import Tandem.Proofs.Run.Lifecycle
import Tandem.Proofs.Run.Mortality
import Tandem.Proofs.Run.Twins
import Tandem.Proofs.Simulation.Chronicle

/-!
# What a device goes through

A device that has loaded a script, and is called at most once to run it, stays `Diary.Regular`
whatever it is given to do (`Diary.Regular.act`) :

* its marks follow the grammar of runs, and its executor is settled;
* it has started a run, asked for one and carried out commands of the other device exactly as often
  as its tasks say (`Diary.Regular.aside`);
* its ticks and completions are those of one turn that walks through the script (`Diary.AsOne`),
  because a device that is drained and lent its script again goes on like its twin that is not;
* when its run was interrupted, its own avatar had died (`Diary.Regular.mortal`).
-/

namespace Tandem

/-! ## Tasks as calls -/

/-- The call that the task is for a device with a script, if it is one. -/
def Task.call? : Task → Option Call
  | take (.command name args) => some (.command name args)
  | take .unlock => some .release
  | take .finish => some .peerEnd
  | update dt => some (.update dt)
  | _ => none

/-- What a watch that sees nothing of acts sees of the task, if it sees that of the start of a
run. -/
def Watch.ofTask {β : Type} (w : Watch β) (start : List β) : Task → List β
  | .ask => w.ofEffect (.sent .run) ++ start
  | .take .run => start
  | .take (.command name args) => w.ofCommand name args true
  | _ => []

namespace Task

/-- A task that keeps the script either starts a run or is a call that the executor serves. -/
theorem calls_or_call? {task : Task} (h : task.keepsScript = true) :
    task.calls = true ∨ ∃ call, task.call? = some call := by
  cases task with
  | load => cases h
  | ask => exact Or.inl rfl
  | take m =>
    cases m with
    | run => exact Or.inl rfl
    | command | unlock | finish => exact Or.inr ⟨_, rfl⟩
  | update dt => exact Or.inr ⟨_, rfl⟩

theorem stopsRun_of_call? {task : Task} {call : Call} (h : task.call? = some call) :
    call.stopsRun = false := by
  unfold call? at h
  split at h <;> cases h <;> rfl

theorem ofCall_of_call? {β : Type} {w : Watch β} {start : List β} {task : Task} {call : Call}
    (h : task.call? = some call) : w.ofCall call = w.ofTask start task := by
  unfold call? at h
  split at h <;> cases h <;> rfl

end Task

namespace Session

variable {α : Type} [Avatar α] {s : Session α}

/-- A call is served on the loaned script. -/
theorem doing_of_call? (hs : s.store.isLoaded = true) {task : Task} {call : Call}
    (h : task.call? = some call) : s.doing task = s.lend.serve call := by
  unfold Task.call? at h
  split at h
  · cases h; rfl
  · cases h; rfl
  · cases h; rfl
  · cases h; exact if_pos hs
  · cases h

/-- The executor, after it has asked the other device for a run if that is its task. -/
def calling (s : Session α) : Task → Turn α
  | .ask => s.lend.send .run
  | _ => s.lend

/-- An idle device that is to start its run does so. -/
theorem doing_of_calls (hs : s.store.isLoaded = true) (hr : s.exec.isRunning = false)
    {task : Task} (h : task.calls = true) : s.doing task = (s.calling task).run.1 := by
  have hr : s.lend.exec.isRunning = false := hr
  cases task with
  | ask => rw [doing, asking, if_pos hs, Turn.startTogether, hr]; rfl
  | take m =>
    cases m with
    | run => exact if_pos hs
    | command | unlock | finish => cases h
  | load | update => cases h

section Calling

omit [Avatar α]

variable (s) (task : Task)

theorem exec_calling : (s.calling task).exec = s.exec := by
  cases task <;> rfl

theorem script_calling : (s.calling task).script = s.lend.script := by
  cases task <;> rfl

theorem twins_calling :
    Turn.Twins ((s.calling task).seen deedWatch) (s.calling task) s.lend := by
  cases task <;> exact ⟨rfl, .refl _ _, (List.append_nil _).symm⟩

variable {β : Type} {w : Watch β}

theorem seen_calling (hw : w.ofEffect (.sent .run) = []) : (s.calling task).seen w = [] := by
  cases task with
  | ask =>
    rw [calling, Turn.seen_send, hw, List.append_nil]
    rfl
  | load | take | update => rfl

theorem seen_calling_append {task : Task} (h : task.calls = true) (start : List β) :
    (s.calling task).seen w ++ start = w.ofTask start task := by
  cases task with
  | ask =>
    rw [calling, Turn.seen_send]
    rfl
  | take m =>
    cases m with
    | run => rfl
    | command | unlock | finish => cases h
  | load | update => cases h

end Calling

end Session

/-! ## Diaries in order -/

/-- The own avatar was dead after one of the occasions. -/
def HasDied (past : List (Occasion GridAvatar)) : Prop :=
  ∃ o ∈ past, o.turn.exec.own.dead = true

/-- An avatar that has died once has died. -/
theorem HasDied.append {past : List (Occasion GridAvatar)} (h : HasDied past)
    (later : List (Occasion GridAvatar)) : HasDied (past ++ later) := by
  obtain ⟨o, ho, hdead⟩ := h
  exact ⟨o, List.mem_append_left later ho, hdead⟩

namespace Diary

variable {whole : List Tick} {d : Diary GridAvatar} {task : Task}

/-- One turn walks through the script, and comes to all that the device has done and its executor
has done on this turn, as far as ticks and completions go. -/
structure AsOne (whole : List Tick) (d : Diary GridAvatar) (t life : Turn GridAvatar) : Prop where
  walked : life.Walked whole
  exec : life.exec = { t.exec with log := life.exec.log }
  script : life.script.Alike Flags.gist t.script
  ticks : life.ticks = d.ticks ++ t.ticks
  completions : life.seen completionWatch = d.seen completionWatch ++ t.seen completionWatch

/-- What is true of a device while its executor is at work, if its script asks for these ticks. -/
structure AtWork (whole : List Tick) (d : Diary GridAvatar) (t : Turn GridAvatar) : Prop where
  sound : t.Sound
  side : t.side.whole = whole
  kept : t.Kept false (d.seen (markWatch false))
  excused : t.Excused (HasDied d.past)
  asOne : ∃ life, d.AsOne whole t life

/-- What is true of a device with a script that asks for these ticks. -/
structure Regular (whole : List Tick) (d : Diary GridAvatar) : Prop where
  loaded : d.session.store.isLoaded = true
  atRest : d.AtWork whole d.session.lend
  flag : d.session.exec.isRunning = true → d.session.exec.mayRun = false → HasDied d.past
  aside : ∀ {β : Type} {w : Watch β} {start : List β}, w.SkipsActs start →
    d.seen w = d.past.flatMap fun o => w.ofTask start o.task
  mortal : ∀ {before o}, before ++ [o] <+: d.past → .event .interrupted ∈ o.turn.deeds →
    HasDied (before ++ [o])

/-! ## Tasks at work -/

theorem AsOne.serve {life : Turn GridAvatar} (h : d.AsOne whole d.session.lend life) (call : Call) :
    d.AsOne whole (d.session.lend.serve call) (life.serve call) := by
  have htwins : Turn.Twins (life.seen deedWatch) life d.session.lend :=
    ⟨h.exec, h.script, (List.append_nil _).symm⟩
  have hserve := htwins.serve call
  have hseen : ∀ {β : Type} (w : Watch β), (life.serve call).seen w =
      life.seen w ++ (d.session.lend.serve call).seen w := fun w => by
    rw [hserve.seen w, life.seen_deedWatch]
  refine ⟨h.walked.serve call, hserve.exec, hserve.script, ?_, ?_⟩
  · rw [Turn.ticks, hseen, ← Turn.ticks, h.ticks]
    exact congrArg (· ++ _) (List.append_nil _)
  · rw [hseen, h.completions]
    exact congrArg (· ++ _) (List.append_nil _)

/-- A call of somebody who does not mean to stop the run. -/
theorem AtWork.serve (h : d.AtWork whole d.session.lend)
    (hflag : d.session.exec.isRunning = true → d.session.exec.mayRun = false → HasDied d.past)
    {call : Call} (hc : call.stopsRun = false) :
    d.AtWork whole (d.session.lend.serve call) := by
  obtain ⟨life, hlife⟩ := h.asOne
  obtain ⟨hsound, hside⟩ := Turn.sound_serve h.sound call
  exact ⟨hsound, hside.trans h.side, Turn.kept_serve nofun h.kept,
    h.excused.serve hflag (fun hi => absurd rfl hi) hc, life.serve call, hlife.serve call⟩

/-- The first run of a device is walked through by one turn, which has not asked for it. -/
theorem AsOne.run (hside : d.session.lend.side.whole = whole)
    (hr : d.session.exec.isRunning = false) (hticks : d.ticks = [])
    (hdone : d.seen completionWatch = []) :
    d.AsOne whole (d.session.calling task).run.1 d.session.lend.run.1 := by
  have hrun := (d.session.twins_calling task).run
  have hnone : ∀ {β : Type} (w : Watch β), w.ofEffect (.sent .run) = [] →
      (d.session.calling task).run.1.seen w = d.session.lend.run.1.seen w := by
    intro β w hw
    rw [hrun.seen w, Turn.seen_deedWatch, d.session.seen_calling task hw, List.nil_append]
  obtain ⟨acts, -, hg⟩ := Turn.goes_run (t := d.session.lend) hr
  refine ⟨?_, ?_, hrun.script.symm, ?_, ?_⟩
  · rw [← hside]
    exact (Turn.Walked.begin d.session.exec d.session.lend.script).goes hg
  · rw [hrun.exec]
  · rw [hticks, Turn.ticks, Turn.ticks, hnone _ rfl, List.nil_append]
  · rw [hdone, hnone _ rfl, List.nil_append]

/-- A run that is started, of a device that has made no tick. -/
theorem AtWork.run (h : d.AtWork whole d.session.lend) (hr : d.session.exec.isRunning = false)
    (hticks : d.ticks = []) (hdone : d.seen completionWatch = []) :
    d.AtWork whole (d.session.calling task).run.1 := by
  have hexec := d.session.exec_calling task
  have hr' : (d.session.calling task).exec.isRunning = false := hexec ▸ hr
  have hnone : ∀ {β : Type} (w : Watch β), w.ofEffect (.sent .run) = [] →
      (d.session.calling task).seen w = d.session.lend.seen w :=
    fun _ hw => d.session.seen_calling task hw
  have hkept : (d.session.calling task).Kept false (d.seen (markWatch false)) :=
    h.kept.of_same (congrArg Executor.core hexec) (fun hs => hexec ▸ hs) (hnone _ rfl)
  have hexcused : (d.session.calling task).Excused (HasDied d.past) :=
    h.excused.of_same ⟨congrArg Executor.own hexec, congrArg Executor.rival hexec,
      congrArg Executor.mayRun hexec⟩
      (fun hrun => (congrArg Executor.isRunning hexec).symm.trans hrun)
      (hnone _ rfl)
  obtain ⟨hsound, hside⟩ := Turn.sound_run hr'
  refine ⟨hsound, hside.trans ?_, Turn.kept_run hkept, Turn.excused_run hexcused hr', _,
    .run h.side hr hticks hdone⟩
  rw [← h.side, Turn.side, hexec, d.session.script_calling]
  rfl

/-! ## How often runs are started -/

/-- How often a run was called for. -/
def calls (d : Diary GridAvatar) : Nat :=
  d.past.countP (·.task.calls)

/-- How often the device has asked the other one for a run. -/
def asks (d : Diary GridAvatar) : Nat :=
  d.past.countP (·.task.asks)

theorem length_flatMap_eq_countP {α β : Type} {f : α → List β} {p : α → Bool}
    (h : ∀ x, (f x).length = if p x then 1 else 0) (xs : List α) :
    (xs.flatMap f).length = xs.countP p := by
  induction xs with
  | nil => rfl
  | cons x xs ih =>
    rw [List.flatMap_cons, List.length_append, h, ih, List.countP_cons, Nat.add_comm]

/-- The runs that have started are those that were called for. -/
theorem Regular.length_starts (h : d.Regular whole) : (d.seen startWatch).length = d.calls := by
  rw [h.aside Watch.skipsActs_startWatch]
  refine length_flatMap_eq_countP (fun o => ?_) d.past
  cases o.task with
  | take m => cases m <;> rfl
  | load | ask | update => rfl

/-- The other device was told to run as often as it was asked to. -/
theorem Regular.count_run (h : d.Regular whole) : d.sent.count .run = d.asks := by
  have hsee : d.sent.count .run = (d.seen askWatch).length := by
    rw [sent, seen, List.count_filterMap, seen, List.length_filterMap_eq_countP]
    refine List.countP_congr fun deed _ => ?_
    rcases deed with _ | _ | e
    · exact Iff.rfl
    · exact Iff.rfl
    · cases e with
      | sent m => cases m <;> exact Iff.rfl
      | performed | stepShown | runShown | logged => exact Iff.rfl
  rw [hsee, h.aside Watch.skipsActs_askWatch]
  refine length_flatMap_eq_countP (fun o => ?_) d.past
  cases o.task with
  | take m => cases m <;> rfl
  | load | ask | update => rfl

theorem count_start (d : Diary GridAvatar) :
    (d.seen (markWatch false)).count .start = (d.seen startWatch).length := by
  rw [seen, List.count_filterMap, seen, List.length_filterMap_eq_countP]
  refine List.countP_congr fun deed _ => ?_
  unfold markWatch startWatch
  dsimp only
  split <;> simp

theorem count_finish (d : Diary GridAvatar) :
    (d.seen (markWatch false)).count .finish = d.sent.count .finish := by
  rw [seen, List.count_filterMap, sent, seen, List.count_filterMap]
  refine List.countP_congr fun deed _ => ?_
  rcases deed with _ | e | e
  · exact Iff.rfl
  · cases e <;> exact Iff.rfl
  · cases e with
    | sent m => cases m <;> exact Iff.rfl
    | performed | stepShown | runShown | logged => exact Iff.rfl

/-- A device that was not called to run has done nothing of a run. -/
theorem Regular.not_called (h : d.Regular whole) (hc : d.calls = 0) :
    d.session.exec.isRunning = false ∧ d.ticks = [] ∧ d.seen completionWatch = [] := by
  have hhistory := h.atRest.kept.history
  have hlend : d.session.lend.seen (markWatch false) = [] := rfl
  rw [hlend, List.append_nil] at hhistory
  have hstart : .start ∉ d.seen (markWatch false) := by
    rw [← List.count_eq_zero, d.count_start, h.length_starts, hc]
  obtain ⟨hstage, hshown⟩ := hhistory.of_not_started hstart
  have hmark : ∀ {deed : Deed} {m : Mark}, deed ∈ d.deeds → (markWatch false).see deed = some m →
      m = .shown false :=
    fun hd hm => hshown _ (List.mem_filterMap.mpr ⟨_, hd, hm⟩)
  refine ⟨?_, ?_, ?_⟩
  · refine Bool.eq_false_iff.mpr fun hr => ?_
    rw [show d.session.lend.exec.phase.stage = .running from Executor.stage_of_running hr] at hstage
    cases hstage
  · refine List.filterMap_eq_nil_iff.mpr fun deed hd => ?_
    rcases deed with _ | _ | _
    · cases hmark hd rfl
    · rfl
    · rfl
  · refine List.filterMap_eq_nil_iff.mpr fun deed hd => ?_
    unfold completionWatch
    dsimp only
    split
    · cases hmark hd rfl
    · rfl

/-! ## Task after task -/

/-- The executor has done its work on the task, and the device is as it was before. -/
theorem Regular.of_atWork (h : d.Regular whole) (hk : task.keepsScript = true)
    (ht : d.AtWork whole (d.session.doing task))
    (hseen : ∀ {β : Type} {w : Watch β} {start : List β}, w.SkipsActs start →
      (d.session.doing task).seen w = w.ofTask start task) : (d.act task).Regular whole := by
  have hdied : ∀ {P : Prop}, P ∨ (d.session.doing task).exec.own.dead = true →
    (P → HasDied d.past) →
      HasDied (d.past ++ [⟨task, d.session.doing task⟩]) := fun hp hP =>
    hp.elim (fun hp => (hP hp).append _) fun hdead =>
      ⟨_, List.mem_append_right _ (List.mem_singleton_self _), hdead⟩
  refine ⟨Session.isLoaded_done h.loaded task, ?_, fun hr hmay => ?_, fun hw => ?_, ?_⟩
  · rw [show (d.act task).session.lend = _ from Session.lend_done h.loaded hk]
    obtain ⟨life, hlife⟩ := ht.asOne
    refine ⟨⟨ht.sound.waits, ht.sound.runs, ht.sound.free⟩, ht.side, ⟨ht.kept.settled, ?_⟩,
      ⟨ht.excused.rival, fun hr hmay => Or.inl (hdied (ht.excused.flag hr hmay) id),
        fun hi => absurd rfl hi⟩,
      life, hlife.walked, hlife.exec, hlife.script, ?_, ?_⟩
    · rw [seen_act]
      exact (List.append_nil _).symm ▸ ht.kept.history
    · rw [hlife.ticks, ticks_act]
      exact (List.append_nil _).symm
    · rw [hlife.completions, seen_act]
      exact (List.append_nil _).symm
  · rw [show (d.act task).session.exec = _ from d.session.exec_done task] at hr hmay
    exact hdied (ht.excused.flag hr hmay) id
  · rw [seen_act, h.aside hw, hseen hw, act, List.flatMap_append, List.flatMap_singleton]
  · intro before o hpre hi
    obtain heq | hpre := List.prefix_concat_iff.mp hpre
    · obtain ⟨rfl, ho⟩ := List.append_inj' heq rfl
      obtain rfl := List.singleton_inj.mp ho
      refine hdied (ht.excused.interrupted ?_) id
      exact List.ne_nil_of_mem (List.mem_filterMap.mpr ⟨_, Array.mem_toList_iff.mpr hi, rfl⟩)
    · exact h.mortal hpre hi

/-- Whatever the device is given to do, it stays regular, if it is called to run at most once. -/
theorem Regular.act (h : d.Regular whole) (hk : task.keepsScript = true)
    (hcalls : task.calls = true → d.calls = 0) : (d.act task).Regular whole := by
  obtain hc | ⟨call, hc⟩ := Task.calls_or_call? hk
  · obtain ⟨hr, hticks, hdone⟩ := h.not_called (hcalls hc)
    have hdoing := Session.doing_of_calls h.loaded hr hc
    refine h.of_atWork hk (hdoing ▸ h.atRest.run hr hticks hdone) fun hw => ?_
    have hr' : (d.session.calling task).exec.isRunning = false :=
      (congrArg Executor.isRunning (d.session.exec_calling task)).trans hr
    rw [hdoing, Turn.seen_run hr' hw, Session.seen_calling_append _ hc]
  · have hdoing := Session.doing_of_call? h.loaded hc
    refine h.of_atWork hk (hdoing ▸ h.atRest.serve h.flag (Task.stopsRun_of_call? hc)) fun hw => ?_
    rw [hdoing, Turn.seen_serve h.atRest.sound hw, ← Task.ofCall_of_call? hc]
    exact List.nil_append _

/-- What the session keeps is collected. -/
theorem Regular.drained (h : d.Regular whole) : d.drained.Regular whole := by
  obtain ⟨life, hlife⟩ := h.atRest.asOne
  have hrest := h.atRest
  refine ⟨h.loaded, ⟨⟨hrest.sound.waits, hrest.sound.runs, hrest.sound.free⟩, hrest.side,
    hrest.kept.of_same rfl (fun hs => ⟨hs.mayRun, hs.shownTop, hs.shownChild⟩) rfl,
    hrest.excused.of_same ⟨rfl, rfl, rfl⟩ (fun hr => hr) rfl,
    life, hlife.walked, hlife.exec, hlife.script, hlife.ticks, hlife.completions⟩,
    h.flag, h.aside, h.mortal⟩

/-- The ticks that a device has made are the first ones that its script asks for. -/
theorem Regular.behind (h : d.Regular whole) : d.ticks <+: whole := by
  obtain ⟨life, hlife⟩ := h.atRest.asOne
  have hticks : life.ticks = d.ticks := hlife.ticks.trans (List.append_nil _)
  rw [← hticks, ← hlife.walked.whole]
  exact hlife.walked.walked.behind

/-- A device that does nothing, and is in no run, walks through its script. -/
theorem walked_lend {s : Session GridAvatar} (hr : s.exec.isRunning = false) :
    s.lend.Walked s.lend.side.whole where
  sound := .of_not_running hr
  whole := rfl
  walked := ⟨fun h => (nomatch hr.symm.trans h), List.nil_prefix, fun _ => rfl,
    fun h => absurd rfl h⟩
  follows _ := rfl

/-- A device on a board, once it has loaded the script in the text. -/
def opening (c : SimulationSettings) (role : Role) (text : String) : Diary GridAvatar :=
  (Diary.mk (Simulation.device c role) []).act (.load text)

theorem calls_opening (c : SimulationSettings) (role : Role) (text : String) :
    (opening c role text).calls = 0 := rfl

/-- A device that has just been loaded has everything before it. -/
theorem regular_opening (c : SimulationSettings) (role : Role) (text : String) :
    (opening c role text).Regular ((Script.ofText c.vocabulary text).script.expansion
      ⟨c.vocabulary.waitCommand, c.timings.ticksPerSecond⟩) := by
  -- All that the device has done is to give up the run that it did not have.
  let abandoned := (Simulation.device c role).lend.abandon
  have hseen : ∀ {β : Type} (w : Watch β), (opening c role text).seen w = abandoned.seen w :=
    fun w => seen_act _ _ w
  have hquiet : ∀ {β : Type} {w : Watch β}, w.ofEvent .reset = [] → w.ofCleanup = [] →
      abandoned.seen w = [] := by
    intro β w he hc
    show (Turn.cleanup _).seen w = []
    rw [Turn.seen_cleanup, hc, Turn.seen_record, he]
    rfl
  have hmarks : abandoned.seen (markWatch false) = [.shown false] := Turn.seen_abandon
  have hwalked : (opening c role text).session.lend.Walked
      (opening c role text).session.lend.side.whole := walked_lend rfl
  refine ⟨rfl, ⟨.of_not_running rfl, rfl, ⟨Turn.settled_cleanup rfl, ?_⟩,
    ⟨rfl, nofun, fun hi => absurd rfl hi⟩, _, hwalked, rfl, .refl _ _, ?_, ?_⟩, nofun, fun hw => ?_,
    ?_⟩
  · rw [hseen, hmarks]
    exact .cleanup (by decide) .new
  · rw [ticks, hseen, hquiet rfl rfl]
    rfl
  · rw [hseen, hquiet rfl rfl]
    rfl
  · rw [hseen, hquiet hw.reset hw.ofCleanup]
    rfl
  · intro before o hpre hi
    have ho : o.turn = abandoned := by
      have hmem := hpre.subset (List.mem_append_right before (List.mem_singleton_self o))
      rw [List.mem_singleton.mp hmem]
      rfl
    have hmem : () ∈ abandoned.seen interruptionWatch :=
      List.mem_filterMap.mpr ⟨_, Array.mem_toList_iff.mpr (ho ▸ hi), rfl⟩
    rw [hquiet rfl rfl] at hmem
    cases hmem

/-! ## The end of the run -/

/-- The run was interrupted on one of the occasions, and the own avatar had died by then. -/
def CutShort (d : Diary GridAvatar) : Prop :=
  ∃ before o after, d.past = before ++ o :: after ∧ .event .interrupted ∈ o.turn.deeds ∧
    HasDied (before ++ [o])

/-- No watch sees that a run is abandoned. -/
theorem not_mem_abandoned (d : Diary GridAvatar) : .abandoned ∉ d.seen (markWatch false) := by
  intro h
  obtain ⟨deed, -, hsee⟩ := List.mem_filterMap.mp h
  unfold markWatch at hsee
  dsimp only at hsee
  split at hsee
  all_goals cases hsee

/-- The end of a run is seen where it is completed or interrupted. -/
theorem eq_of_see_ended {deed : Deed} (h : (markWatch false).see deed = some .ended) :
    deed = .event .completed ∨ deed = .event .interrupted := by
  unfold markWatch at h
  dsimp only at h
  split at h
  · cases h
  · cases h
  · exact Or.inl rfl
  · exact Or.inr rfl
  all_goals cases h

/-- The run of a device that was called once, and is idle, has begun once and told its end once, and
it was completed or cut short by a death. -/
theorem Regular.outcome (h : d.Regular whole) (hidle : d.session.isIdle = true) (hc : d.calls = 1) :
    (d.seen startWatch).length = 1 ∧ d.sent.count .finish = 1 ∧ (d.ticks = whole ∨ d.CutShort) := by
  have hstarts : (d.seen startWatch).length = 1 := h.length_starts.trans hc
  have hhistory := h.atRest.kept.history
  have hlend : d.session.lend.seen (markWatch false) = [] := rfl
  have hphase : d.session.lend.exec.phase = .idle := of_decide_eq_true hidle
  rw [hlend, List.append_nil, hphase] at hhistory
  have hfinish : (d.seen (markWatch false)).count .finish = 1 := by
    have hcount := hhistory.count_start
    rw [d.count_start, hstarts, List.count_eq_zero.mpr d.not_mem_abandoned] at hcount
    exact hcount.symm
  refine ⟨hstarts, d.count_finish.symm.trans hfinish, ?_⟩
  have hended : .ended ∈ d.seen (markWatch false) := by
    rw [← List.count_pos_iff, hhistory.count_ended, hfinish]
    exact Nat.one_pos
  obtain ⟨deed, hd, hsee⟩ := List.mem_filterMap.mp hended
  obtain rfl | rfl := eq_of_see_ended hsee
  · left
    obtain ⟨life, hlife⟩ := h.atRest.asOne
    have hdone : life.seen completionWatch ≠ [] := by
      rw [hlife.completions]
      exact List.ne_nil_of_mem (List.mem_append_left _ (List.mem_filterMap.mpr ⟨_, hd, rfl⟩))
    rw [← hlife.walked.whole, ← hlife.walked.walked.finished hdone, hlife.ticks]
    exact (List.append_nil _).symm
  · right
    obtain ⟨o, ho, hd⟩ := List.mem_flatMap.mp hd
    obtain ⟨before, after, hpast⟩ := List.append_of_mem ho
    have hi := Array.mem_toList_iff.mp hd
    have hprefix : before ++ [o] <+: d.past := ⟨after, by rw [hpast, List.append_assoc]; rfl⟩
    exact ⟨before, o, after, hpast, hi, h.mortal hprefix hi⟩

end Diary

end Tandem
