import Tandem.Proofs.Run.Haste
import Tandem.Proofs.Simulation.Frames

/-!
# How much of a run the trace shows

The trace of a device is read off the events that were collected from it, so it shows the last
`EventLog.eventCap` events of each frame and no others. As long as no frame is longer than that, the
trace is that of all commands that the device has handed to its own avatar, and that the avatar has
grasped (`Simulation.trace_of_frames`).

A frame may well be longer. A run of free ticks is over in the operation that starts it
(`Simulation.told_begin_of_free`), however many there are, while there are only so many frames for a
trace to show something of (`Simulation.length_trace_le`).
-/

namespace Tandem

open Turn (commandText)

/-- The trace shows the commands that the own avatar understood, by the events. -/
theorem DeviceReport.trace_eq (r : DeviceReport) :
    r.trace = (r.events.toList.map (·.event)).filterMap RunEvent.ownCommand? := by
  rw [List.filterMap_map]
  rfl

/-! ## Candour -/

namespace Diary

variable {v : Vocabulary} {d : Diary GridAvatar}

/-- Both avatars of the device know the vocabulary. The commands that the own avatar understood, by
the events, are those of the commands told that it grasps. -/
structure Candid (v : Vocabulary) (d : Diary GridAvatar) : Prop where
  own : d.session.exec.own.vocabulary = v
  rival : d.session.exec.rival.vocabulary = v
  traced : d.events.filterMap RunEvent.ownCommand? =
    (d.told.filter v.grasps).map fun u => commandText u.1 u.2

/-- A task keeps a candid diary candid. -/
theorem Candid.act (h : d.Candid v) (task : Task) : (d.act task).Candid v := by
  have hlend : d.session.lend.Candid v := ⟨h.own, h.rival, rfl⟩
  obtain ⟨begins, hdoing⟩ := d.session.passage_doing task
  obtain ⟨hown, hrival, htraced⟩ := hdoing.candid (hlend.nextUpdateIf begins)
  have hexec : (d.act task).session.exec = (d.session.doing task).exec := d.session.exec_done task
  refine ⟨hexec ▸ hown, hexec ▸ hrival, ?_⟩
  rw [events, told, seen_act, seen_act, List.filterMap_append, List.filter_append, List.map_append]
  exact congrArg₂ (· ++ ·) h.traced htraced

theorem Candid.drained (h : d.Candid v) : d.drained.Candid v := ⟨h.own, h.rival, h.traced⟩

end Diary

namespace Simulation

variable {c : SimulationSettings} {masterScript slaveScript : String} {report : SimulationReport}

/-- Every chronicle keeps candid diaries. -/
theorem candid_chronicle (c : SimulationSettings) (masterScript slaveScript : String)
    (role : Role) :
    ((chronicle masterScript slaveScript c).diary role).Candid c.vocabulary :=
  Chronicle.diary_chronicle_induction (fun _ task h => h.act task) (fun _ h => h.drained)
    ⟨rfl, rfl, rfl⟩
    masterScript slaveScript

/-! ## The trace -/

/-- The trace is read off the last events of each frame. -/
theorem trace_eq_frames (hrun : run masterScript slaveScript c = .ok report) (role : Role) :
    (report.device role).trace =
      ((frames masterScript slaveScript c role).flatMap (·.rtake EventLog.eventCap)).filterMap
        RunEvent.ownCommand? := by
  obtain ⟨hreport, -, -⟩ := report_chronicle hrun
  have hcollected : (report.device role).events.toList.map (·.event) =
      (chronicle masterScript slaveScript c).collected role := by
    rw [hreport]
    cases role <;> rfl
  rw [DeviceReport.trace_eq, hcollected,
    (collects_chronicle masterScript slaveScript c role).collected]

theorem length_flatMap_rtake_le {α : Type} (cap : Nat) (xss : List (List α)) :
    (xss.flatMap (·.rtake cap)).length ≤ xss.length * cap := by
  induction xss with
  | nil => exact Nat.zero_le _
  | cons xs xss ih =>
    rw [List.flatMap_cons, List.length_append, List.length_cons, Nat.add_mul, Nat.one_mul,
      Nat.add_comm]
    refine Nat.add_le_add ih ?_
    rw [List.rtake, List.length_drop]
    omega

/-- However many commands a device makes, its trace is no longer than the frames that it is read
off. -/
theorem length_trace_le (hrun : run masterScript slaveScript c = .ok report) (role : Role) :
    (report.device role).trace.length ≤ (2 + 2 * maxSteps c) * EventLog.eventCap := by
  let all := frames masterScript slaveScript c role
  have hframes : all.length ≤ 2 + 2 * maxSteps c := length_frames_le masterScript slaveScript c role
  calc (report.device role).trace.length
      = ((all.flatMap (·.rtake EventLog.eventCap)).filterMap RunEvent.ownCommand?).length := by
        rw [trace_eq_frames hrun]
    _ ≤ (all.flatMap (·.rtake EventLog.eventCap)).length := List.length_filterMap_le _ _
    _ ≤ all.length * EventLog.eventCap := length_flatMap_rtake_le _ _
    _ ≤ (2 + 2 * maxSteps c) * EventLog.eventCap := Nat.mul_le_mul_right _ hframes

/-! ## Long frames -/

/-- What was told when the run was asked for has been told after all steps. -/
theorem prefix_told_chronicle (c : SimulationSettings) (masterScript slaveScript : String)
    (role : Role) :
    ((Chronicle.begin c masterScript slaveScript).diary role).told <+:
      ((chronicle masterScript slaveScript c).diary role).told := by
  refine Chronicle.diary_steps_induction
    (Q := fun d => ((Chronicle.begin c masterScript slaveScript).diary role).told <+: d.told)
    (fun d task h => h.trans ?_) (fun _ h => h) _ _ _ List.prefix_rfl
  rw [Diary.told, Diary.told, Diary.seen_act]
  exact List.prefix_append _ _

/-- A device that is asked for a run of free ticks, and whose avatar cannot die, tells all commands
of its script at once. -/
theorem told_act_of_free {d : Diary GridAvatar} (hs : d.session.store.isLoaded = true)
    (hr : d.session.exec.isRunning = false) (hsafe : d.session.exec.own.Safe)
    (hrival : d.session.exec.rival.wired = false)
    (hfree : ∀ tick ∈ d.session.lend.script.expansion d.session.exec.waitRule,
      tick.Free d.session.exec.own.vocabulary) :
    (d.act .ask).told = d.told ++ d.session.lend.script.utterances d.session.exec.waitCommand := by
  have hdoing : d.session.doing .ask = (d.session.lend.send .run).run.1 :=
    Session.doing_of_calls hs hr rfl
  have hexcused : (d.session.lend.send .run).Excused False :=
    ⟨hrival, fun hrun => (nomatch hr.symm.trans hrun), fun hi => absurd rfl hi⟩
  rw [Diary.told, Diary.seen_act, hdoing]
  exact congrArg (_ ++ ·)
    (Turn.told_run_of_free (t := d.session.lend.send .run) hr hexcused hsafe hfree)

/-- A master whose ticks are free, on a board without traps, tells all commands of its script when
it asks for the run. -/
theorem told_begin_of_free (htraps : c.traps = [])
    (hfree : ∀ tick ∈ wholes c masterScript slaveScript .master, tick.Free c.vocabulary) :
    ((Chronicle.begin c masterScript slaveScript).diary .master).told =
      (scripts c masterScript slaveScript .master).utterances c.vocabulary.waitCommand := by
  have hopening : (Diary.opening c .master masterScript).told = [] := by
    rw [Diary.told, Diary.opening, Diary.seen_act]
    rfl
  have hdrained : ∀ d : Diary GridAvatar, d.drained.told = d.told := fun _ => rfl
  have hask := told_act_of_free (d := (Diary.opening c .master masterScript).drained) rfl rfl
    ⟨htraps, rfl⟩ rfl hfree
  have hbegin : (Chronicle.begin c masterScript slaveScript).diary .master =
      ((Diary.opening c .master masterScript).drained.act .ask).drained := by
    unfold Chronicle.begin
    rw [Chronicle.diary_collect, Chronicle.diary_act_self, Chronicle.diary_collect,
      Chronicle.diary_load]
    rfl
  rw [hdrained, hopening, List.nil_append] at hask
  rw [hbegin, hdrained]
  exact hask

/-! ## What the trace shows -/

/-- The trace of a device shows the last events of each frame : those of them that tell of a command
that its own avatar understood. In all of its events these are the commands that it has told the
other device of, without those that its avatar does not grasp. So if no frame is longer than what a
log keeps, the trace is that of these commands, and if the avatar grasps them all, it is as long as
the list of the command messages that the device has sent. -/
theorem trace_of_frames (hrun : run masterScript slaveScript c = .ok report) (role : Role) :
    let all := frames masterScript slaveScript c role
    let device := (chronicle masterScript slaveScript c).diary role
    let grasped := (device.told.filter c.vocabulary.grasps).map fun u => commandText u.1 u.2
    (report.device role).trace =
        (all.flatMap (·.rtake EventLog.eventCap)).filterMap RunEvent.ownCommand? ∧
      all.flatten.filterMap RunEvent.ownCommand? = grasped ∧
      ((∀ frame ∈ all, frame.length ≤ EventLog.eventCap) → (report.device role).trace = grasped ∧
        ((∀ u ∈ device.told, c.vocabulary.grasps u) →
          (report.device role).trace.length =
            (device.sent.filterMap Message.utterance?).length)) := by
  intro all device grasped
  have htrace := trace_eq_frames hrun role
  have hgrasped : all.flatten.filterMap RunEvent.ownCommand? = grasped := by
    rw [← (collects_chronicle masterScript slaveScript c role).events]
    exact (candid_chronicle c masterScript slaveScript role).traced
  refine ⟨htrace, hgrasped, fun hshort => ?_⟩
  have hwhole : (report.device role).trace = grasped := by
    have hkept : all.flatMap (·.rtake EventLog.eventCap) = all.flatten := by
      rw [← List.flatMap_id]
      refine List.flatMap_congr fun frame hframe => ?_
      rw [List.rtake, Nat.sub_eq_zero_of_le (hshort frame hframe)]
      rfl
    rw [htrace, hkept, hgrasped]
  refine ⟨hwhole, fun hall => ?_⟩
  rw [hwhole, List.length_map, List.filter_eq_self.mpr hall, Diary.told_eq]

/-- The settings of a simulation of one step. -/
def brief : SimulationSettings :=
  { SimulationSettings.standard with maxTime := 0.1 }

/-- A master that moves its avatar, takes it back, and moves it again. -/
def hesitant : String := "MOVE (EAST);\nRESET;\nMOVE (EAST);\n"

/-- The second move of the master does not come about in one step, and the trace shows all that
does. -/
theorem trace_of_short_frames : ∃ report, run hesitant "" brief = .ok report ∧
    (∀ frame ∈ frames hesitant "" brief .master, frame.length ≤ EventLog.eventCap) ∧
    report.master.trace = ["MOVE(EAST)", "RESET"] ∧
    (((chronicle hesitant "" brief).diary .master).sent.filterMap
      Message.utterance?).length = 2 := by
  obtain ⟨report, hrun, -⟩ := exists_report (x := run hesitant "" brief) (fun _ => true)
    (by decide +kernel)
  have hshort : ∀ frame ∈ frames hesitant "" brief .master, frame.length ≤ EventLog.eventCap := by
    decide +kernel
  obtain ⟨-, -, hwhole⟩ := trace_of_frames hrun .master
  obtain ⟨htrace, hlength⟩ := hwhole hshort
  have htraced : report.master.trace = ["MOVE(EAST)", "RESET"] :=
    htrace.trans (by decide +kernel)
  refine ⟨report, hrun, hshort, htraced, ?_⟩
  rw [← hlength (by decide +kernel)]
  exact congrArg List.length htraced

/-- A master that resets its avatar more often than there is room for in the trace of one step. -/
def tiresome : String := "LOOP REPEAT \x7b\nRESET;\n\x7d 20000 Times;\n"

theorem commands_tiresome : (scripts brief tiresome "" .master).commands =
    [.repeated 20000 [.ofName "RESET" []]] := rfl

theorem gives_tiresome : ∀ role, (scripts brief tiresome "" role).Gives (· = ("RESET", [])) := by
  intro role
  refine Script.gives_of_every
    (Q := fun c => c.children = [] → (c.name, c.args) = ("RESET", [])) (fun _ hb => hb rfl) ?_
  cases role with
  | master =>
    rw [Script.Every, commands_tiresome]
    exact ⟨⟨fun hnone => absurd hnone (List.cons_ne_nil _ _), fun _ => rfl, trivial⟩, trivial⟩
  | slave => trivial

theorem free_tiresome :
    ∀ tick ∈ wholes brief tiresome "" .master, tick.Free brief.vocabulary := by
  refine Script.free_of_gives fun rule cursor tick ht => ?_
  rw [gives_tiresome .master rule cursor tick ht]
  decide +kernel

/-- The master resets its avatar 20000 times when it asks for the run, and tells the slave so each
time. Its avatar grasps all that, but the trace does not show it : a simulation of one step has four
frames, of which 4096 events are collected each. -/
theorem trace_of_long_frame : ∃ report, run tiresome "" brief = .ok report ∧
    (∀ u ∈ ((chronicle tiresome "" brief).diary .master).told, brief.vocabulary.grasps u) ∧
    report.master.trace ≠ ((((chronicle tiresome "" brief).diary .master).told.filter
      brief.vocabulary.grasps).map fun u => commandText u.1 u.2) ∧
    report.master.trace.length ≠
      (((chronicle tiresome "" brief).diary .master).sent.filterMap Message.utterance?).length := by
  have hcheck : check brief = .ok () := by decide +kernel
  have hrun : ∃ report, run tiresome "" brief = .ok report := ⟨_, by rw [run, hcheck]⟩
  obtain ⟨report, hrun⟩ := hrun
  have hspeaks : ∀ u : Utterance, u = ("RESET", []) → brief.vocabulary.Speaks u.1 u.2 := by
    rintro u rfl
    rw [Vocabulary.Speaks]
    decide +kernel
  have htold : ∀ u ∈ ((chronicle tiresome "" brief).diary .master).told, u = ("RESET", []) :=
    ((flows_chronicle (vocabulary_check_of_run hrun) hspeaks gives_tiresome).orderly .master).told
  have hall : ∀ u ∈ ((chronicle tiresome "" brief).diary .master).told,
    brief.vocabulary.grasps u := by
    intro u hu
    rw [htold u hu]
    decide +kernel
  have hmany : 20000 ≤ ((chronicle tiresome "" brief).diary .master).told.length := by
    have hprefix := (prefix_told_chronicle brief tiresome "" .master).length_le
    rw [told_begin_of_free rfl free_tiresome, Script.utterances, commands_tiresome,
      Command.utterancesOf_repeated (by decide), List.length_replicate] at hprefix
    exact hprefix
  -- Which events the log drops does not matter : there is no room for all of them.
  have hfew : report.master.trace.length ≤ 16384 := by
    have hlength := length_trace_le hrun .master
    rw [show maxSteps brief = 1 by decide +kernel] at hlength
    exact hlength
  refine ⟨report, hrun, hall, fun htrace => ?_, fun hlength => ?_⟩
  · have hlength := congrArg List.length htrace
    rw [List.filter_eq_self.mpr hall, List.length_map] at hlength
    omega
  · rw [← Diary.told_eq] at hlength
    omega

end Simulation

end Tandem
