import Tandem.Proofs.Simulation.Mirror
import Tandem.Proofs.Simulation.Traffic

/-!
# Simulations that have finished

A simulation has finished when nobody runs and nothing is on its way. It could look so before the
slave has started, or while an end is on its way that nobody waits for. It does not, because the
messages on their way are all that keeps the two devices apart : once there are none, each device
has been called to run exactly once, and has heard all that the other one has told
(`Simulation.sound_of_finished`).
-/

namespace Tandem

/-- The commands of the other device that are carried out are those that the device was told of. -/
theorem Diary.Regular.remote {whole : List Tick} {d : Diary GridAvatar} (h : d.Regular whole) :
    d.seen remoteWatch = d.heard.map fun u => Turn.commandText u.1 u.2 := by
  rw [h.aside Watch.skipsActs_remoteWatch, heard, received, List.filterMap_filterMap,
    List.map_filterMap, List.filterMap_eq_flatMap_toList]
  refine List.flatMap_congr fun o _ => ?_
  cases o.task with
  | take m => cases m <;> rfl
  | load | ask | update => rfl

namespace Simulation

variable {c : SimulationSettings} {masterScript slaveScript : String} {report : SimulationReport}

/-- Every simulation flows, if the commands of its scripts have the property, and so are of the
vocabulary. -/
theorem flows_chronicle {P : Utterance → Prop} (hv : c.vocabulary.check = .ok ())
    (hP : ∀ u, P u → c.vocabulary.Speaks u.1 u.2)
    (hgives : ∀ role, (scripts c masterScript slaveScript role).Gives P) :
    (chronicle masterScript slaveScript c).Flows P (wholes c masterScript slaveScript) :=
  Chronicle.steps_induction c.timeStep (fun _ role h => h.takeIn hv hP role)
    (fun _ role h => h.update hv hP role c.timeStep) (fun _ time h => h.collect time) _ _
    (Chronicle.flows_begin hv hP hgives)

theorem vocabulary_check_of_run (h : run masterScript slaveScript c = .ok report) :
    c.vocabulary.check = .ok () := by
  unfold run at h
  split at h
  · cases h
  · next hc => exact vocabulary_check hc

namespace Chronicle

variable {P : Utterance → Prop} {whole : Role → List Tick} {ch : Chronicle}

/-- In a settled pair both devices are idle, and no message is under way. -/
theorem of_isSettled (h : ch.recording.pair.isSettled = true) (role : Role) :
    (ch.diary role).session.isIdle = true ∧ ch.link.inbox role = [] := by
  simp only [Pair.isSettled, Bool.and_eq_true, beq_iff_eq, Link.pending,
    List.length_eq_zero_iff] at h
  cases role
  · exact h.1
  · exact h.2

/-- Once nothing is on its way, both devices have been called, and have heard all that was told. -/
theorem Flows.of_quiet (h : ch.Flows P whole) (hquiet : ∀ role, ch.link.inbox role = [])
    (role : Role) :
    (ch.diary role).calls = 1 ∧ (ch.diary role).received = (ch.diary role.peer).sent := by
  have hmail := h.mail role
  rw [Carries, Link.mail, hquiet, List.filterMap_nil, List.append_nil, List.append_nil] at hmail
  refine ⟨?_, hmail⟩
  rw [Diary.calls_eq, hmail, (h.orderly role.peer).count_run]
  exact h.asks role

/-- Once it is settled, both devices have begun one run, told its end once, and completed it, if it
was not cut short. Each has heard what the other one has told. -/
theorem Flows.outcome (h : ch.Flows P whole) (hsettled : ch.recording.pair.isSettled = true)
    (role : Role) : ((ch.diary role).seen startWatch).length = 1 ∧
      (ch.diary role).sent.count .finish = 1 ∧
      ((ch.diary role).ticks = whole role ∨ (ch.diary role).CutShort) ∧
      (ch.diary role).heard = (ch.diary role.peer).told := by
  have hquiet := of_isSettled hsettled
  obtain ⟨hcalls, hreceived⟩ := h.of_quiet (fun role => (hquiet role).2) role
  obtain ⟨hstarts, hfinish, houtcome⟩ := (h.orderly role).outcome (hquiet role).1 hcalls
  exact ⟨hstarts, hfinish, houtcome, by rw [Diary.heard, hreceived, Diary.told_eq]⟩

end Chronicle

/-- When a simulation has finished, which takes no more steps than it may have, both devices are
idle and nothing is on its way. Each of them has started one run and told its end once. The run has
made all ticks of its script, or it was interrupted, and the own avatar had died by then. Each
device has heard what the other one has told, command by command, and has carried it out as such. -/
theorem sound_of_finished (hrun : run masterScript slaveScript c = .ok report)
    (hfinished : report.finished = true) :
    let ch := chronicle masterScript slaveScript c
    report = ch.recording.report report.steps c.timeStep true ∧ report.steps ≤ maxSteps c ∧
    ∀ role, (ch.diary role).session.isIdle = true ∧ ch.link.inbox role = [] ∧
      ((ch.diary role).seen startWatch).length = 1 ∧ (ch.diary role).sent.count .finish = 1 ∧
      ((ch.diary role).ticks = wholes c masterScript slaveScript role ∨ (ch.diary role).CutShort) ∧
      (ch.diary role).heard = (ch.diary role.peer).told ∧
      (ch.diary role).seen remoteWatch =
        (ch.diary role.peer).told.map fun u => Turn.commandText u.1 u.2 := by
  intro ch
  obtain ⟨hreport, hsteps, hsettled⟩ := report_chronicle hrun
  rw [hfinished] at hreport
  have hflows : ch.Flows (fun u => c.vocabulary.Speaks u.1 u.2)
    (wholes c masterScript slaveScript) :=
    flows_chronicle (vocabulary_check_of_run hrun) (fun _ hu => hu) fun role =>
      Script.gives_ofText c.vocabulary (texts masterScript slaveScript role)
  refine ⟨hreport, hsteps, fun role => ?_⟩
  obtain ⟨hidle, hempty⟩ := Chronicle.of_isSettled (hsettled hfinished) role
  obtain ⟨hstarts, hfinish, houtcome, hheard⟩ := hflows.outcome (hsettled hfinished) role
  exact ⟨hidle, hempty, hstarts, hfinish, houtcome, hheard, hheard ▸ (hflows.orderly role).remote⟩

/-- A trap on the way of an avatar that goes east. -/
def trapped : SimulationSettings :=
  { SimulationSettings.standard with traps := [(2, 0)], timeStep := 0.5 }

/-- The master dies of its second move, which ends its run before the third one. The slave has heard
of two moves. -/
theorem sound_after_death :
    let ch := chronicle "MOVE (EAST);\nMOVE (EAST);\nMOVE (EAST);\n" "MOVE (EAST);\n" trapped
    ∃ report, run "MOVE (EAST);\nMOVE (EAST);\nMOVE (EAST);\n" "MOVE (EAST);\n" trapped =
      .ok report ∧
      report.finished = true ∧ report.steps ≤ maxSteps trapped ∧
      (ch.diary .master).CutShort ∧ (ch.diary .slave).heard = (ch.diary .master).told ∧
      (ch.diary .slave).heard = [("MOVE", ["EAST"]), ("MOVE", ["EAST"])] ∧
      ∀ role, (ch.diary role).sent.count .finish = 1 := by
  obtain ⟨report, hrun, hfinished⟩ := exists_report
    (x := run "MOVE (EAST);\nMOVE (EAST);\nMOVE (EAST);\n" "MOVE (EAST);\n" trapped)
    SimulationReport.finished (by decide +kernel)
  obtain ⟨-, hsteps, hdevices⟩ := sound_of_finished hrun hfinished
  obtain ⟨-, -, -, -, houtcome, -, -⟩ := hdevices .master
  obtain ⟨-, -, -, -, -, hheard, -⟩ := hdevices .slave
  refine ⟨report, hrun, hfinished, hsteps, houtcome.resolve_left ?_, hheard, by decide +kernel,
    fun role => (hdevices role).2.2.2.1⟩
  exact fun hall => absurd (congrArg List.length hall) (by decide +kernel)

end Simulation

end Tandem
