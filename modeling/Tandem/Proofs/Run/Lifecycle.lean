import Tandem.Proofs.Run.Career
import Mathlib.Data.List.Chain

/-!
# The lifecycle of runs

What the grammar of careers (`History`) says of runs, for every sequence of orders from the
construction of an executor on.

The phase, the pending wait, the cleanup that is due, the run flag and the policy are separate
pieces of state. After every order they agree on whether there is a run and what it waits for, and
so does what was last shown of it (`Career.lifecycle`).

A run that is completed or interrupted tells the other device so exactly once, and does nothing
afterwards. A run that is abandoned does not tell it. So the runs started are those that have told
their end, those that were abandoned, and the one that is in progress (`Career.finish_once`).
-/

namespace Tandem

namespace Executor

variable {α : Type}

/-- The pieces of state that tell whether there is a run agree. -/
structure Coherent (e : Executor α) : Prop where
  flag : e.isRunning = false → e.mayRun = false
  policy : e.policy.running = e.isRunning
  waits : e.phase = .waitingForPeer ↔ e.pending = .peer
  paces : e.phase = .running ↔ ∃ remaining, e.pending = .pacing remaining ∧ timeSlack < remaining
  waitsForNothing : e.isRunning = false → e.pending = .nothing
  due : e.cleanupDue = true ↔ e.phase = .completed ∨ e.phase = .interrupted
  unheard : e.cleanupDue = true → e.policy.peerFinished = false
  hidden : e.isRunning = false → e.shownTop = none ∧ e.shownChild = none

/-- A settled executor is coherent. -/
theorem Settled.coherent {e : Executor α} (h : e.Settled) : e.Coherent := by
  cases h with
  | rests hc hs =>
    have hr : e.isRunning = false := hc.isRunning
    have hn : e.pending = .nothing := hc.pending
    have hp : e.phase ≠ .running ∧ e.phase ≠ .waitingForPeer := by
      simpa [isRunning] using hr
    refine ⟨fun _ => hs.mayRun, hc.running.trans hr.symm, ⟨fun h => absurd h hp.2, ?_⟩,
      ⟨fun h => absurd h hp.1, ?_⟩, fun _ => hn, hc.due, hc.unheard,
      fun _ => ⟨hs.shownTop, hs.shownChild⟩⟩
    · rw [hn]
      nofun
    · rw [hn]
      rintro ⟨_, h, -⟩
      cases h
  | halts hu hh =>
    have hr : e.isRunning = true := hh.isRunning
    have hd : e.cleanupDue = false := hu.due
    have hrun : ∀ {p : Prop}, e.isRunning = false → p := fun h => by cases hr.symm.trans h
    have hdue : ∀ {p : Prop}, e.cleanupDue = true → p := fun h => by cases hd.symm.trans h
    obtain ⟨hp, hn⟩ | ⟨hp, remaining, hn, hlt⟩ := hh
    · have hp : e.phase = .waitingForPeer := hp
      have hn : e.pending = .peer := hn
      refine ⟨hrun, hu.running.trans hr.symm, ⟨fun _ => hn, fun _ => hp⟩, ?_, hrun, ⟨hdue, ?_⟩,
        hdue, hrun⟩
      · simp [hp, hn]
      · simp [hp]
    · have hp : e.phase = .running := hp
      have hn : e.pending = .pacing remaining := hn
      refine ⟨hrun, hu.running.trans hr.symm, ?_, ⟨fun _ => ⟨remaining, hn, hlt⟩, fun _ => hp⟩,
        hrun, ⟨hdue, ?_⟩, hdue, hrun⟩
      · simp [hp, hn]
      · simp [hp]

end Executor

/-! ## What is shown of runs -/

/-- What a history shows of runs : at last that there is one exactly if one has begun that is not
cleaned up, and never twice in a row that there is one. -/
structure ShownWell (stage : RunStage) (shown : List Bool) : Prop where
  last : shown.getLast? = some true ↔ stage ≠ .idle
  chain : shown.IsChain fun a b => ¬(a = true ∧ b = true)

namespace ShownWell

variable {stage : RunStage} {shown : List Bool}

/-- The end of a run is shown at any stage. -/
theorem down (h : ShownWell stage shown) : ShownWell .idle (shown ++ [false]) where
  last := by simp
  chain := h.chain.append (.singleton false) (by simp)

/-- The beginning of a run is shown when none is shown. -/
theorem up (h : ShownWell .idle shown) : ShownWell .running (shown ++ [true]) where
  last := by simp
  chain := by
    refine h.chain.append (.singleton true) fun a ha b _ hab => ?_
    rw [hab.1] at ha
    exact h.last.mp ha rfl

end ShownWell

/-- Work does not change what a viewer sees of a run. -/
theorem Mark.shown?_of_isWork {m : Mark} (h : m.isWork = true) : m.shown? = none := by
  cases m <;> first | rfl | cases h

/-- A viewer of a career that follows the grammar is told well. -/
theorem History.shownWell {stage : RunStage} {ms : List Mark} (h : History stage ms) :
    ShownWell stage (ms.filterMap Mark.shown?) := by
  induction h with
  | new => exact ⟨by simp, .nil⟩
  | start _ ih =>
    rw [List.filterMap_append]
    exact ih.up
  | work _ hw ih =>
    rw [List.filterMap_append, List.filterMap_cons_none (Mark.shown?_of_isWork hw),
      List.filterMap_nil, List.append_nil]
    exact ih
  | finish _ ih =>
    rw [List.filterMap_append]
    simp only [List.filterMap_cons, Mark.shown?, List.filterMap_nil, List.append_nil]
    exact ⟨ih.last.trans (by simp), ih.chain⟩
  | abandon _ ih =>
    rw [List.filterMap_append]
    exact ih.down
  | cleanup _ _ ih =>
    rw [List.filterMap_append]
    exact ih.down

/-! ## The marks of each run -/

/-- The marks of the runs, those of the last run first. What is shown is no part of them. -/
def Mark.join (runs : List (List Mark)) : Mark → List (List Mark)
  | shown _ => runs
  | start => [] :: runs
  | m =>
    match runs with
    | [] => [[m]]
    | run :: runs => (run ++ [m]) :: runs

/-- The marks of each run of a history, the last run first. -/
def runsOf (ms : List Mark) : List (List Mark) :=
  ms.foldl Mark.join []

/-- The marks of a run that has ended : it has worked, and then told the other device or was
abandoned. -/
def Ended (run : List Mark) : Prop :=
  ∃ work, (∀ m ∈ work, m.isWork = true) ∧
    (run = work ++ [.ended, .finish] ∨ run = work ++ [.abandoned])

/-- At every stage all runs have ended but the one that is in progress, which has only worked. -/
def RunsWell : RunStage → List (List Mark) → Prop
  | .running, runs =>
    ∃ run rest, runs = run :: rest ∧ (∀ m ∈ run, m.isWork = true) ∧ ∀ r ∈ rest, Ended r
  | .idle, runs | .ended, runs => ∀ r ∈ runs, Ended r

/-- In a career that follows the grammar each run has its end before the next one starts. -/
theorem History.runsWell {stage : RunStage} {ms : List Mark} (h : History stage ms) :
    RunsWell stage (runsOf ms) := by
  induction h with
  | new => exact fun _ h => nomatch h
  | start _ ih =>
    rw [runsOf, List.foldl_append]
    exact ⟨[], _, rfl, (fun _ h => nomatch h), ih⟩
  | @work ms m _ hw ih =>
    obtain ⟨run, rest, hr, hwork, hended⟩ := ih
    rw [runsOf, List.foldl_append, ← runsOf, hr]
    refine ⟨run ++ [m], rest, ?_, ?_, hended⟩
    · cases m <;> first | rfl | cases hw
    · exact List.forall_mem_append.mpr ⟨hwork, List.forall_mem_singleton.mpr hw⟩
  | finish _ ih =>
    obtain ⟨run, rest, hr, hwork, hended⟩ := ih
    rw [runsOf, List.foldl_append, ← runsOf, hr]
    refine List.forall_mem_cons.mpr ⟨⟨run, hwork, Or.inl ?_⟩, hended⟩
    rw [List.append_assoc]
    rfl
  | abandon _ ih =>
    obtain ⟨run, rest, hr, hwork, hended⟩ := ih
    rw [runsOf, List.foldl_append, ← runsOf, hr]
    exact List.forall_mem_cons.mpr ⟨⟨run, hwork, Or.inr rfl⟩, hended⟩
  | @cleanup stage ms hs _ ih =>
    rw [runsOf, List.foldl_append, ← runsOf]
    cases stage with
    | running => exact absurd rfl hs
    | idle | ended => exact ih

/-- A run that is completed or interrupted tells the other device so once, as the last thing it
does, and one that is abandoned does not. -/
structure TellsOnce (run : List Mark) : Prop where
  once : .ended ∈ run → run.count .finish = 1
  silent : .abandoned ∈ run → .finish ∉ run
  last : ∀ before after, run = before ++ .finish :: after → after = []

theorem not_mem_of_isWork {work : List Mark} (h : ∀ m ∈ work, m.isWork = true) {m : Mark}
    (hm : m.isWork = false) : m ∉ work :=
  fun hmem => by cases hm.symm.trans (h m hmem)

/-- A run tells nothing before it ends. -/
theorem tellsOnce_of_not_mem {run : List Mark} (hf : .finish ∉ run) (he : .ended ∉ run) :
    TellsOnce run where
  once h := absurd h he
  silent _ := hf
  last before _ h := absurd (h ▸ List.mem_append_right before List.mem_cons_self) hf

/-- A run that has ended tells the other device as often as it should. -/
theorem Ended.tellsOnce {run : List Mark} (h : Ended run) : TellsOnce run := by
  obtain ⟨work, hw, rfl | rfl⟩ := h
  -- Work holds no mark of an end, so the finish is the only one, and nothing follows it.
  · have hf : Mark.finish ∉ work ++ [.ended] := by
      simpa using not_mem_of_isWork hw rfl
    have ha : Mark.abandoned ∉ work := not_mem_of_isWork hw rfl
    rw [show work ++ [Mark.ended, .finish] = (work ++ [.ended]) ++ [.finish] by simp]
    refine ⟨fun _ => ?_, fun h => ?_, fun before after h => ?_⟩
    · rw [List.count_append, List.count_eq_zero.mpr hf]
      rfl
    · simp [ha] at h
    · obtain rfl | ⟨after, m, rfl⟩ := List.eq_nil_or_concat after
      · rfl
      · rw [List.concat_eq_append, ← List.cons_append, ← List.append_assoc] at h
        have h := (List.append_inj' h rfl).1
        exact absurd (h ▸ List.mem_append_right before List.mem_cons_self) hf
  · refine tellsOnce_of_not_mem ?_ ?_
    · simpa using not_mem_of_isWork hw rfl
    · simpa using not_mem_of_isWork hw rfl

theorem History.tellsOnce {stage : RunStage} {ms : List Mark} (h : History stage ms) :
    ∀ run ∈ runsOf ms, TellsOnce run := by
  have hruns := h.runsWell
  cases stage with
  | idle | ended => exact fun run hr => (hruns run hr).tellsOnce
  | running =>
    obtain ⟨run, rest, hr, hwork, hended⟩ := hruns
    rw [hr]
    refine List.forall_mem_cons.mpr ⟨?_, fun r hr => (hended r hr).tellsOnce⟩
    exact tellsOnce_of_not_mem (not_mem_of_isWork hwork rfl) (not_mem_of_isWork hwork rfl)

/-- The runs that were started are those that have told their end, those that were abandoned, and
the one that is in progress. -/
theorem History.count_start {stage : RunStage} {ms : List Mark} (h : History stage ms) :
    ms.count .start = ms.count .finish + ms.count .abandoned +
      if stage = .running then 1 else 0 := by
  induction h with
  | new => rfl
  | start _ ih => simp [List.count_append, ih]
  | @work ms m _ hw ih =>
    have hnot : ∀ {m' : Mark}, m'.isWork = false → [m].count m' = 0 := fun hm' =>
      List.count_eq_zero.mpr (not_mem_of_isWork (List.forall_mem_singleton.mpr hw) hm')
    rw [List.count_append, List.count_append, List.count_append, hnot rfl, hnot rfl, hnot rfl]
    exact ih
  | finish _ ih => simp [List.count_append, ih]; omega
  | abandon _ ih => simp [List.count_append, ih]; omega
  | cleanup hs _ ih => simp [List.count_append, ih, hs]

/-- Every run that is completed or interrupted tells its end. -/
theorem History.count_ended {stage : RunStage} {ms : List Mark} (h : History stage ms) :
    ms.count .ended = ms.count .finish := by
  induction h with
  | new => rfl
  | start _ ih => simp [List.count_append, ih]
  | @work ms m _ hw ih =>
    have hnot : ∀ {m' : Mark}, m'.isWork = false → [m].count m' = 0 := fun hm' =>
      List.count_eq_zero.mpr (not_mem_of_isWork (List.forall_mem_singleton.mpr hw) hm')
    rw [List.count_append, List.count_append, hnot rfl, hnot rfl, ih]
  | finish _ ih => simp [List.count_append, ih]
  | abandon _ ih => simp [List.count_append, ih]
  | cleanup _ _ ih => simp [List.count_append, ih]

/-- Before the first run is started, all that has been shown is that there is none. -/
theorem History.of_not_started {stage : RunStage} {ms : List Mark} (h : History stage ms)
    (hn : .start ∉ ms) : stage = .idle ∧ ∀ m ∈ ms, m = .shown false := by
  induction h with
  | new => exact ⟨rfl, nofun⟩
  | start => simp at hn
  | work _ _ ih => cases (ih fun h => hn (List.mem_append_left _ h)).1
  | finish _ ih => cases (ih fun h => hn (List.mem_append_left _ h)).1
  | abandon _ ih => cases (ih fun h => hn (List.mem_append_left _ h)).1
  | cleanup _ _ ih =>
    have hms := (ih fun h => hn (List.mem_append_left _ h)).2
    exact ⟨rfl, List.forall_mem_append.mpr ⟨hms, List.forall_mem_singleton.mpr rfl⟩⟩

/-! ## Every career -/

namespace Career

variable {α : Type} [Avatar α]

/-- After every sequence of orders, the pieces of state that tell whether there is a run agree, it
was last shown that there is one exactly if the executor is not idle, and this was never shown twice
in a row. -/
theorem lifecycle (role : Role) (mode : SyncMode) (timings : Timings) (wait : String)
    (own rival : α) (s : Script) (orders : List Order) :
    let c := (Executor.new role mode timings wait own rival).career s orders
    let shown := c.marks.filterMap Mark.shown?
    c.exec.Coherent ∧ (shown.getLast? = some true ↔ c.exec.phase ≠ .idle) ∧
      shown.IsChain fun a b => ¬(a = true ∧ b = true) := by
  intro c shown
  have h : c.Kept := kept role mode timings wait own rival s orders
  have hs := h.history.shownWell
  refine ⟨h.settled.coherent, hs.last.trans ?_, hs.chain⟩
  cases c.exec.phase <;> simp [Phase.stage]

/-- After every sequence of orders, as many runs have been started as the other device was told of
ends of runs and runs were abandoned, and one more if a run is in progress. A run that is completed
or interrupted tells the other device so once, as the last thing that it does. To abandon a run does
not tell it. -/
theorem finish_once (role : Role) (mode : SyncMode) (timings : Timings) (wait : String)
    (own rival : α) (s : Script) (orders : List Order) :
    let c := (Executor.new role mode timings wait own rival).career s orders
    (c.marks.count .start = c.marks.count .finish + c.marks.count .abandoned +
      if c.exec.isRunning then 1 else 0) ∧
    History c.exec.phase.stage c.marks ∧
    (∀ run ∈ runsOf c.marks, TellsOnce run) ∧
    ∀ e ∈ c.past, e.order.isAbandon = true → .effect (.sent .finish) ∉ e.deeds := by
  intro c
  have h : c.Kept := kept role mode timings wait own rival s orders
  refine ⟨?_, h.history, h.history.tellsOnce, h.silent⟩
  rw [h.history.count_start]
  cases hr : c.exec.isRunning with
  | true => rw [Executor.stage_of_running hr]; rfl
  | false => rw [if_neg (Executor.stage_of_not_running hr)]; rfl

end Career

end Tandem
