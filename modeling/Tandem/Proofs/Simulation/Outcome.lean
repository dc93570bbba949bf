import Tandem.Proofs.Run.Fate
import Tandem.Proofs.Simulation.Finished

/-!
# The outcome of a simulation

What a finished simulation comes to can be read off its scripts, if all their commands are for one
avatar only : each device has told the commands that its own avatar obeys, of all that its script
asks for, and that avatar is where these commands have led it (`Simulation.outcome_of_finished`). A
run that was cut short makes no difference, because the avatar had died by then, and obeys nothing
that was left.

Neither the mode nor the timings nor the time step has to do with the scripts, so none of them has
to do with the outcome (`Simulation.outcome_eq`).
-/

namespace Tandem

/-! ## What a device does to its avatar -/

/-- If a command is taken in, it is for one avatar only. -/
def Task.OwnIn (v : Vocabulary) (task : Task) : Prop :=
  ∀ u ∈ task.message?.bind Message.utterance?, v.isStatic u.1 = false

/-- On any task but to take in a command for both avatars, a device does nothing to its own avatar
but to hand it the commands of its ticks. -/
theorem Session.enacts_doing {s : Session GridAvatar} {task : Task}
    (h : task.OwnIn s.exec.own.vocabulary) : Turn.Enacts s.lend (s.doing task) := by
  cases task with
  | load => exact s.lend.enacts_abandon
  | ask =>
    rw [doing, asking]
    split
    · exact s.lend.enacts_startTogether
    · exact .refl _
  | take m =>
    cases m with
    | command name args => exact s.lend.enacts_dispatch args (h _ rfl)
    | unlock => exact s.lend.enacts_afterRelease
    | finish => exact s.lend.enacts_afterPeerEnd
    | run =>
      unfold doing receiving
      dsimp only
      split
      · exact s.lend.enacts_run
      · exact .refl _
  | update dt =>
    rw [doing, updating]
    split
    · exact s.lend.enacts_update dt
    · exact .refl _

namespace Diary

variable {a : GridAvatar} {d : Diary GridAvatar} {task : Task} {whole : List Tick}

/-- The commands of the ticks that the device has made. -/
def commands (d : Diary GridAvatar) : List Utterance :=
  d.ticks.filterMap Tick.utterance?

/-- The own avatar of the device is what the commands of its ticks have made of the avatar it was at
first. The device has told those that it obeyed, and death is for good. -/
structure Fated (a : GridAvatar) (d : Diary GridAvatar) : Prop where
  told : d.told = Avatar.obeyed a d.commands
  own : d.session.exec.own = Avatar.fate a d.commands
  died : HasDied d.past → d.session.exec.own.dead = true

/-- A task leaves the avatar to the fate that its own commands have for it. -/
theorem Fated.act (h : d.Fated a) (hown : task.OwnIn a.vocabulary) :
    (d.act task).Fated a := by
  have hvocabulary : d.session.exec.own.vocabulary = a.vocabulary := by
    rw [h.own, a.vocabulary_fate]
  obtain ⟨made, hticks, htold, hfate⟩ := Session.enacts_doing (hvocabulary.symm ▸ hown)
  have hticks : (d.session.doing task).ticks = made := hticks
  have htold : (d.session.doing task).told =
      Avatar.obeyed d.session.exec.own (made.filterMap Tick.utterance?) := htold
  have hcommands : (d.act task).commands = d.commands ++ made.filterMap Tick.utterance? := by
    rw [commands, ticks_act, hticks, List.filterMap_append, commands]
  have hexec : (d.act task).session.exec = (d.session.doing task).exec := d.session.exec_done task
  refine ⟨?_, ?_, ?_⟩
  · have hact : (d.act task).told = d.told ++ (d.session.doing task).told := d.seen_act task _
    rw [hact, h.told, htold, h.own, hcommands, Avatar.obeyed_append]
  · rw [hexec, hfate, hcommands, Avatar.fate_append, ← h.own]
    rfl
  · rintro ⟨o, ho, hdead⟩
    rw [hexec]
    obtain ho | ho := List.mem_append.mp ho
    · have hdead := h.died ⟨o, ho, hdead⟩
      have hlend : (d.session.lend.exec.own).dead = true := hdead
      rw [hfate, Avatar.fate_of_dead hlend]
      exact hlend
    · obtain rfl := List.mem_singleton.mp ho
      exact hdead

theorem Fated.drained (h : d.Fated a) : d.drained.Fated a :=
  ⟨h.told, h.own, h.died⟩

/-- A device whose run was completed or cut short comes to what its whole script comes to. -/
theorem Fated.outcome (h : d.Fated a) (hregular : d.Regular whole)
    (ho : d.ticks = whole ∨ d.CutShort) :
    d.told = Avatar.obeyed a (whole.filterMap Tick.utterance?) ∧
      d.session.exec.own = Avatar.fate a (whole.filterMap Tick.utterance?) := by
  obtain rfl | ⟨before, o, after, hpast, -, hdied⟩ := ho
  · exact ⟨h.told, h.own⟩
  · obtain ⟨rest, rfl⟩ := hregular.behind
    have hdead : (Avatar.fate a d.commands).dead = true := by
      rw [← h.own]
      refine h.died ?_
      rw [hpast, ← List.singleton_append, ← List.append_assoc]
      exact hdied.append after
    rw [List.filterMap_append, Avatar.obeyed_append, Avatar.fate_append]
    refine ⟨?_, ?_⟩
    · exact h.told.trans ((congrArg (_ ++ ·) (Avatar.obeyed_of_dead hdead _)).trans
        (List.append_nil _)).symm
    · exact h.own.trans (Avatar.fate_of_dead hdead _).symm

end Diary

/-! ## What the devices of a simulation come to -/

/-- The report on the device of that role. -/
def SimulationReport.device (r : SimulationReport) : Role → DeviceReport
  | .master => r.master
  | .slave => r.slave

namespace Simulation

/-- The own avatar of a device at first. -/
def firstAvatar (c : SimulationSettings) : GridAvatar :=
  .new c.vocabulary c.gridSize false c.traps true

namespace Chronicle

variable {P : Utterance → Prop} {whole : Role → List Tick} {a : GridAvatar} {ch : Chronicle}
  {role : Role} {task : Task}

theorem fated_act (h : ∀ role, (ch.diary role).Fated a) (hown : task.OwnIn a.vocabulary) :
    ∀ role', ((ch.act role task).diary role').Fated a := by
  refine role.forall_of_peer ?_ ?_
  · rw [diary_act_self]
    exact (h role).act hown
  · rw [diary_act_peer]
    exact h role.peer

theorem fated_collect (h : ∀ role, (ch.diary role).Fated a) (time : Float32) (role : Role) :
    ((ch.collect time).diary role).Fated a := by
  rw [diary_collect]
  exact (h role).drained

/-- A command that is on its way was told by the other device. -/
theorem Flows.of_message (h : ch.Flows P whole) {text : String} {rest : List String}
    (hin : ch.link.inbox role = text :: rest) {m : Message} (hm : Message.decode? text = some m) :
    ∀ u ∈ m.utterance?, P u := by
  intro u hu
  refine (h.orderly role.peer).told u ?_
  have hmail := (h.mail role).withInbox hin
  rw [hm, Carries, diary_withInbox, diary_withInbox] at hmail
  rw [Diary.told_eq, ← hmail]
  refine List.mem_filterMap.mpr ⟨m, ?_, hu⟩
  exact List.mem_append_right _ (List.mem_append_left _ (List.mem_singleton_self m))

/-- A message has no command for both avatars, so the fate of neither changes. -/
theorem fated_takeIn (hflows : ch.Flows P whole)
    (hP : ∀ u, P u → a.vocabulary.isStatic u.1 = false) (h : ∀ role, (ch.diary role).Fated a) :
    ∀ role', ((ch.takeIn role).diary role').Fated a := by
  unfold takeIn
  cases hin : ch.link.inbox role with
  | nil => exact h
  | cons text rest =>
    have hrest : ∀ role', ((ch.withInbox role rest).diary role').Fated a := fun role' => by
      rw [diary_withInbox]
      exact h role'
    dsimp only
    cases hm : Message.decode? text with
    | none => exact hrest
    | some m => exact fated_act hrest fun u hu => hP u (hflows.of_message hin hm u hu)

/-- The report tells where the own avatar of each device has come to. -/
theorem device_report (ch : Chronicle) (role : Role) (steps : Nat) (dt : Float32)
    (finished : Bool) :
    ((ch.recording.report steps dt finished).device role).position =
        (ch.diary role).session.exec.own.position ∧
      ((ch.recording.report steps dt finished).device role).dead =
        (ch.diary role).session.exec.own.dead := by
  cases role <;> exact ⟨rfl, rfl⟩

theorem fated_begin (c : SimulationSettings) (masterScript slaveScript : String) :
    ∀ role, ((begin c masterScript slaveScript).diary role).Fated (firstAvatar c) := by
  have hload : ∀ role, (((new c).load masterScript slaveScript).diary role).Fated
      (firstAvatar c) := by
    intro role
    rw [diary_load]
    have hnew : (Diary.mk (device c role) []).Fated (firstAvatar c) :=
      ⟨rfl, rfl, fun ⟨_, ho, _⟩ => absurd ho List.not_mem_nil⟩
    exact hnew.act fun _ hu => nomatch hu
  have hask : Task.ask.OwnIn (firstAvatar c).vocabulary := fun _ hu => nomatch hu
  exact fated_collect (fated_act (fated_collect hload 0) hask) 0

end Chronicle

variable {c c' : SimulationSettings} {masterScript slaveScript : String}
  {report report' : SimulationReport}

/-- In the whole chronicle each avatar meets the fate that its own commands have for it. -/
theorem fated_chronicle {P : Utterance → Prop} (hv : c.vocabulary.check = .ok ())
    (hspeaks : ∀ u, P u → c.vocabulary.Speaks u.1 u.2)
    (hown : ∀ u, P u → c.vocabulary.isStatic u.1 = false)
    (hgives : ∀ role, (scripts c masterScript slaveScript role).Gives P) :
    ∀ role, ((chronicle masterScript slaveScript c).diary role).Fated (firstAvatar c) := by
  have hstart := Chronicle.flows_begin hv hspeaks hgives
  refine (Chronicle.steps_induction
    (P := fun ch => ch.Flows P (wholes c masterScript slaveScript) ∧
      ∀ role, (ch.diary role).Fated (firstAvatar c)) c.timeStep ?_ ?_ ?_ _ _
    ⟨hstart, Chronicle.fated_begin c masterScript slaveScript⟩).2
  · rintro ch role ⟨hflows, hfated⟩
    exact ⟨hflows.takeIn hv hspeaks role, Chronicle.fated_takeIn hflows hown hfated⟩
  · rintro ch role ⟨hflows, hfated⟩
    exact ⟨hflows.update hv hspeaks role c.timeStep, Chronicle.fated_act hfated nofun⟩
  · rintro ch time ⟨hflows, hfated⟩
    exact ⟨hflows.collect time, Chronicle.fated_collect hfated time⟩

/-- A finished simulation of scripts whose commands are all for one avatar only comes to what its
scripts say : each device has told the commands that its own avatar obeys, and the avatar is where
they have led it, and dead if they have killed it. -/
theorem outcome_of_finished (hrun : run masterScript slaveScript c = .ok report)
    (hfinished : report.finished = true)
    (hown : ∀ role, (scripts c masterScript slaveScript role).Every (Command.OwnIn c.vocabulary))
    (role : Role) :
    let us := (scripts c masterScript slaveScript role).utterances c.vocabulary.waitCommand
    ((chronicle masterScript slaveScript c).diary role).told = Avatar.obeyed (firstAvatar c) us ∧
      (report.device role).position = (Avatar.fate (firstAvatar c) us).position ∧
      (report.device role).dead = (Avatar.fate (firstAvatar c) us).dead := by
  intro us
  obtain ⟨hreport, -, hsettled⟩ := report_chronicle hrun
  have hv := vocabulary_check_of_run hrun
  have hgives : ∀ role, (scripts c masterScript slaveScript role).Gives fun u =>
      c.vocabulary.Speaks u.1 u.2 ∧ c.vocabulary.isStatic u.1 = false :=
        fun role rule cursor tick ht =>
    ⟨Script.gives_ofText c.vocabulary (texts masterScript slaveScript role) rule cursor tick ht,
      Script.gives_of_ownIn (hown role) rule cursor tick ht⟩
  have hflows := flows_chronicle hv (fun _ hu => hu.1) hgives
  have hfated := fated_chronicle hv (fun _ hu => hu.1) (fun _ hu => hu.2) hgives role
  obtain ⟨-, -, hended, -⟩ := hflows.outcome (hsettled hfinished) role
  obtain ⟨htold, hfate⟩ := hfated.outcome (hflows.orderly role).toRegular hended
  have hus : (wholes c masterScript slaveScript role).filterMap Tick.utterance? = us :=
    Script.filterMap_utterance?_expansion _ _
  obtain ⟨hposition, hdead⟩ := (chronicle masterScript slaveScript c).device_report role
    report.steps
    c.timeStep report.finished
  rw [← hreport, hfate, hus] at hposition hdead
  exact ⟨hus ▸ htold, hposition, hdead⟩

/-- The outcome of a pair of scripts whose commands are all for one avatar only does not depend on
the mode, the timings, the time and the time step of the simulation, as long as it finishes : each
device tells the same commands, and its own avatar comes to the same cell, dead or alive. -/
theorem outcome_eq (hrun : run masterScript slaveScript c = .ok report)
    (hfinished : report.finished = true) (hrun' : run masterScript slaveScript c' = .ok report')
    (hfinished' : report'.finished = true) (hvocabulary : c'.vocabulary = c.vocabulary)
    (hsize : c'.gridSize = c.gridSize) (htraps : c'.traps = c.traps)
    (hown : ∀ role, (scripts c masterScript slaveScript role).Every (Command.OwnIn c.vocabulary))
    (role : Role) :
    ((chronicle masterScript slaveScript c').diary role).told =
        ((chronicle masterScript slaveScript c).diary role).told ∧
      (report'.device role).position = (report.device role).position ∧
      (report'.device role).dead = (report.device role).dead := by
  have hscripts : scripts c' masterScript slaveScript = scripts c masterScript slaveScript := by
    unfold scripts
    rw [hvocabulary]
  have hfirst : firstAvatar c' = firstAvatar c := by
    rw [firstAvatar, hvocabulary, hsize, htraps, firstAvatar]
  obtain ⟨htold, hposition, hdead⟩ := outcome_of_finished hrun hfinished hown role
  obtain ⟨htold', hposition', hdead'⟩ := outcome_of_finished hrun' hfinished'
    (by rw [hscripts, hvocabulary]; exact hown) role
  rw [hscripts, hfirst, hvocabulary] at htold' hposition' hdead'
  exact ⟨htold'.trans htold.symm, hposition'.trans hposition.symm, hdead'.trans hdead.symm⟩

/-- The settings of a simulation without a lock, which looks more often and waits in longer
ticks. -/
def hasty : SimulationSettings :=
  { trapped with
    mode := .async
    timings := { Timings.standard with commandDelay := 0.25, waitQuantum := 1 }
    timeStep := 0.25 }

/-- A walk into a trap, with a rest on the way and a step that is never made. -/
def fatalWalk : String := "MOVE (EAST);\nContinue_Sec (1);\nMOVE (EAST);\nMOVE (EAST);\n"

/-- A walk in a loop, with a rest behind it. -/
def loopedWalk : String := "LOOP REPEAT \x7b\nMOVE (SOUTH);\n\x7d 2 Times;\nContinue_Sec (1);\n"

/-- In step or without a lock, the master dies in the same cell of its second command. -/
theorem outcome_eq_in_haste : ∃ report report',
    run fatalWalk loopedWalk trapped = .ok report ∧ report.finished = true ∧
      run fatalWalk loopedWalk hasty = .ok report' ∧ report'.finished = true ∧
      report'.steps ≠ report.steps ∧
      ((chronicle fatalWalk loopedWalk hasty).diary .master).told =
        ((chronicle fatalWalk loopedWalk trapped).diary .master).told ∧
      report'.master.position = report.master.position ∧ report'.master.dead = true := by
  obtain ⟨report, hrun, hreport⟩ := exists_report (x := run fatalWalk loopedWalk trapped)
    (fun r => r.finished && r.master.dead && r.steps == 6) (by decide +kernel)
  obtain ⟨report', hrun', hreport'⟩ := exists_report (x := run fatalWalk loopedWalk hasty)
    (fun r => r.finished && r.steps == 2) (by decide +kernel)
  simp only [Bool.and_eq_true, beq_iff_eq] at hreport hreport'
  obtain ⟨⟨hfinished, hdies⟩, hsteps⟩ := hreport
  obtain ⟨hfinished', hsteps'⟩ := hreport'
  have hown : ∀ role, (scripts trapped fatalWalk loopedWalk role).Every
      (Command.OwnIn trapped.vocabulary) := by
    intro role
    cases role <;> decide +kernel
  obtain ⟨htold, hposition, hdead⟩ :=
    outcome_eq hrun hfinished hrun' hfinished' rfl rfl rfl hown .master
  refine ⟨report, report', hrun, hfinished, hrun', hfinished', ?_, htold, hposition,
    hdead.trans hdies⟩
  rw [hsteps, hsteps']
  decide

end Simulation

end Tandem
