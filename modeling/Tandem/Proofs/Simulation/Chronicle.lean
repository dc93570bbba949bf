import Tandem.Proofs.Pair.Mail
import Tandem.Proofs.Run.Ticks

/-!
# The chronicle of a simulation

The report of a simulation shows how it has ended. Its `Chronicle` also keeps what each device was
given to do, one `Task` after the other, and all that it has done about it. The chronicle takes the
same steps as the simulation and ends where it ends (`Simulation.report_chronicle`), so what every
step of a chronicle preserves is true of every simulation (`Chronicle.steps_induction`).

What one device has been through is its `Diary`. A task of one device adds to its own diary and
leaves that of the other one as it is (`Chronicle.diary_act_self`, `Chronicle.diary_act_peer`).
-/

namespace Tandem

/-! ## Tasks -/

/-- Something that a device is given to do in a simulation. -/
inductive Task where
  /-- The script in the text is loaded. -/
  | load (text : String)
  /-- A run of both devices is asked for. -/
  | ask
  /-- A message of the other device is taken in. -/
  | take (m : Message)
  /-- A stretch of time passes. -/
  | update (dt : Float32)

namespace Task

/-- The message that is taken in, if one is. -/
def message? : Task → Option Message
  | take m => some m
  | _ => none

/-- The working script is left alone. -/
def keepsScript : Task → Bool
  | load _ => false
  | _ => true

/-- The other device is asked for a run. -/
def asks : Task → Bool
  | ask => true
  | _ => false

/-- A run is called for. -/
def calls : Task → Bool
  | ask | take .run => true
  | _ => false

end Task

namespace Session

variable {α : Type} [Avatar α]

/-- The work of the executor on the task. -/
def doing (s : Session α) : Task → Turn α
  | .load _ => s.lend.abandon
  | .ask => s.asking
  | .take m => s.receiving m
  | .update dt => s.updating dt

/-- The session after the task. -/
def done (s : Session α) : Task → SessionTurn α
  | .load text => s.loadText text
  | .ask => s.startTogether.1
  | .take m => s.receive m
  | .update dt => s.update dt

variable (s : Session α)

/-- Tasks that leave the working script alone are work of the executor and nothing else. -/
theorem after_doing {task : Task} (h : task.keepsScript = true) :
    s.after (s.doing task) = s.done task := by
  cases task with
  | load => cases h
  | ask => exact s.after_asking
  | take m => exact s.after_receiving m
  | update dt => exact s.after_updating dt

/-- The messages of a task are those that are seen on the way. -/
theorem messages_done (task : Task) :
    (s.done task).messages = (s.doing task).seen messageWatch := by
  rw [← messages_after]
  cases h : task.keepsScript with
  | true => rw [s.after_doing h]
  | false =>
    cases task with
    | load => rfl
    | ask | take | update => cases h

theorem exec_done (task : Task) : (s.done task).session.exec = (s.doing task).exec := by
  cases h : task.keepsScript with
  | true => rw [← s.after_doing h]; rfl
  | false =>
    cases task with
    | load => rfl
    | ask | take | update => cases h

variable {s}

/-- The executor goes on with the next task where it has stopped with this one. -/
theorem lend_done (hs : s.store.isLoaded = true) {task : Task} (h : task.keepsScript = true) :
    (s.done task).session.lend = (s.doing task).exec.on (s.doing task).script := by
  rw [← s.after_doing h, lend_after hs]

theorem isLoaded_done (hs : s.store.isLoaded = true) (task : Task) :
    (s.done task).session.store.isLoaded = true := by
  cases h : task.keepsScript with
  | true => rw [← s.after_doing h, isLoaded_after, hs]
  | false =>
    cases task with
    | load => rfl
    | ask | take | update => cases h

end Session

/-! ## Diaries -/

/-- A task of a device, with what its executor has done about it. -/
structure Occasion (α : Type) where
  task : Task
  turn : Turn α

/-- The session of a device, with all that it has done so far. -/
structure Diary (α : Type) where
  session : Session α
  past : List (Occasion α)

namespace Diary

variable {α β : Type}

/-- The deeds of the device. -/
def deeds (d : Diary α) : List Deed :=
  d.past.flatMap (·.turn.deeds.toList)

/-- What the watch has seen of the device. -/
def seen (d : Diary α) (w : Watch β) : List β :=
  d.deeds.filterMap w.see

/-- The messages that the device has sent. -/
def sent (d : Diary α) : List Message := d.seen messageWatch

/-- The commands that the other device was told of. -/
def told (d : Diary α) : List Utterance := d.seen utteranceWatch

/-- The messages that the device has taken in. -/
def received (d : Diary α) : List Message :=
  d.past.filterMap (·.task.message?)

/-- The commands that the device was told of. -/
def heard (d : Diary α) : List Utterance :=
  d.received.filterMap Message.utterance?

/-- The ticks that the device has made. -/
def ticks (d : Diary α) : List Tick := d.seen tickWatch

/-- What is told are the utterances among the messages that are sent. -/
theorem told_eq (d : Diary α) : d.told = d.sent.filterMap Message.utterance? :=
  Watch.filterMap_see utteranceWatch_see _

/-- The events that the session keeps are collected. -/
def drained (d : Diary α) : Diary α :=
  { d with session := d.session.drain.2 }

variable [Avatar α]

/-- The device has done another task. -/
def act (d : Diary α) (task : Task) : Diary α where
  session := (d.session.done task).session
  past := d.past ++ [⟨task, d.session.doing task⟩]

/-- What is seen of a diary grows by what is seen of the task. -/
theorem seen_act (d : Diary α) (task : Task) (w : Watch β) :
    (d.act task).seen w = d.seen w ++ (d.session.doing task).seen w := by
  rw [seen, deeds, act, List.flatMap_append, List.flatMap_singleton, List.filterMap_append]
  rfl

theorem ticks_act (d : Diary α) (task : Task) :
    (d.act task).ticks = d.ticks ++ (d.session.doing task).ticks :=
  d.seen_act task tickWatch

theorem received_act (d : Diary α) (task : Task) :
    (d.act task).received = d.received ++ task.message?.toList := by
  rw [received, act, List.filterMap_append, received]
  cases h : task.message? <;> simp [h]

end Diary

/-! ## Chronicles -/

namespace Simulation

/-- A recording, with what each of the devices has done so far. -/
structure Chronicle where
  recording : Recording
  past : Role → List (Occasion GridAvatar)

namespace Chronicle

/-- What is on the way between the devices. -/
def link (ch : Chronicle) : Link := ch.recording.pair.link

/-- What the device of that role has been through. -/
def diary (ch : Chronicle) (role : Role) : Diary GridAvatar :=
  ⟨ch.recording.pair.session role, ch.past role⟩

/-- The device of that role does another task. -/
def act (ch : Chronicle) (role : Role) (task : Task) : Chronicle where
  recording := ch.recording.step fun p => p.after role ((p.session role).done task)
  past := Function.update ch.past role ((ch.diary role).act task).past

/-- The chronicle with other texts on their way to the device of that role. -/
def withInbox (ch : Chronicle) (role : Role) (texts : List String) : Chronicle :=
  { ch with recording := ch.recording.step (·.withInbox role texts) }

/-- The device of that role takes in the first text that is on its way to it. A text that stands for
no message is dropped. -/
def takeIn (ch : Chronicle) (role : Role) : Chronicle :=
  match ch.link.inbox role with
  | [] => ch
  | text :: rest =>
    match Message.decode? text with
    | some m => (ch.withInbox role rest).act role (.take m)
    | none => ch.withInbox role rest

/-- The device of that role takes in so many texts, one after the other. -/
def takeInMany (ch : Chronicle) (role : Role) : Nat → Chronicle
  | 0 => ch
  | n + 1 => (ch.takeIn role).takeInMany role n

/-- The device of that role takes in everything that is on its way to it. -/
def deliver (ch : Chronicle) (role : Role) : Chronicle :=
  ch.takeInMany role (ch.link.pending role)

/-- Both devices take in what was sent to them. -/
def exchange (ch : Chronicle) : Chronicle :=
  (ch.deliver .master).deliver .slave

/-- The length of a step passes for both devices. -/
def pass (dt : Float32) (ch : Chronicle) : Chronicle :=
  (ch.act .master (.update dt)).act .slave (.update dt)

/-- The events that the sessions have kept are collected, as of that time. -/
def collect (ch : Chronicle) (time : Float32) : Chronicle :=
  { ch with recording := ch.recording.collect time }

/-- At most that many steps after the first `done` ones. -/
def steps (dt : Float32) : Nat → Nat → Chronicle → Chronicle
  | 0, _, ch => ch
  | left + 1, done, ch =>
    let ch := ch.exchange.collect (Float32.ofNat done * dt)
    if ch.recording.pair.isSettled then ch
    else steps dt left (done + 1) ((ch.pass dt).collect (Float32.ofNat (done + 1) * dt))

/-- The chronicle of a pair that has done nothing. -/
def new (c : SimulationSettings) : Chronicle :=
  ⟨⟨pair c, #[], #[]⟩, fun _ => []⟩

/-- Both scripts are loaded. -/
def load (masterScript slaveScript : String) (ch : Chronicle) : Chronicle :=
  (ch.act .master (.load masterScript)).act .slave (.load slaveScript)

/-- The chronicle before the first step: both scripts are loaded, and the master has asked for the
run. -/
def begin (c : SimulationSettings) (masterScript slaveScript : String) : Chronicle :=
  ((((new c).load masterScript slaveScript).collect 0).act .master .ask).collect 0

end Chronicle

/-- The chronicle of the run of two scripts against each other. -/
def chronicle (masterScript slaveScript : String) (c : SimulationSettings) : Chronicle :=
  (Chronicle.begin c masterScript slaveScript).steps c.timeStep (maxSteps c) 0

/-! ## A chronicle is one of its simulation -/

namespace Chronicle

theorem recording_takeIn (ch : Chronicle) (role : Role) :
    (ch.takeIn role).recording = ch.recording.step (·.takeIn role) := by
  unfold takeIn Pair.takeIn link
  unfold Recording.step
  dsimp only
  cases ch.recording.pair.link.inbox role with
  | nil => rfl
  | cons text rest =>
    dsimp only
    cases Message.decode? text <;> rfl

theorem recording_takeInMany (role : Role) : ∀ (n : Nat) (ch : Chronicle),
    (ch.takeInMany role n).recording = ch.recording.step (·.takeInMany role n)
  | 0, _ => rfl
  | n + 1, ch => by
    rw [takeInMany, recording_takeInMany role n, recording_takeIn]
    rfl

/-- The recording of an exchange is an exchange of the recording. -/
theorem recording_exchange (ch : Chronicle) :
    ch.exchange.recording = ch.recording.step Simulation.exchange := by
  have h : ∀ (ch : Chronicle) (role : Role),
      (ch.deliver role).recording = ch.recording.step (·.deliver role) := by
    intro ch role
    rw [deliver, recording_takeInMany, Recording.step, Recording.step, Pair.deliver_eq]
    rfl
  rw [exchange, h, h]
  rfl

/-- The steps of a chronicle are those of its simulation. -/
theorem report_steps (dt : Float32) : ∀ (left done : Nat) (ch : Chronicle),
    ∃ n finished, Simulation.steps dt left done ch.recording =
        (ch.steps dt left done).recording.report n dt finished ∧ n ≤ done + left ∧
      (finished = true → (ch.steps dt left done).recording.pair.isSettled = true)
  | 0, done, _ => ⟨done, false, rfl, Nat.le_refl _, nofun⟩
  | left + 1, done, ch => by
    have hexchanged : (ch.exchange.collect (Float32.ofNat done * dt)).recording =
        (ch.recording.step Simulation.exchange).collect (Float32.ofNat done * dt) := by
      rw [← recording_exchange]
      rfl
    unfold Simulation.steps steps
    dsimp only
    rw [← hexchanged]
    split
    · next hsettled => exact ⟨done, true, rfl, by omega, fun _ => hsettled⟩
    · obtain ⟨n, finished, hreport, hn, hsettled⟩ := report_steps dt left (done + 1)
        (((ch.exchange.collect (Float32.ofNat done * dt)).pass dt).collect
          (Float32.ofNat (done + 1) * dt))
      exact ⟨n, finished, hreport, by omega, hsettled⟩

/-- A chronicle begins with the recording of the simulation. -/
theorem recording_begin (c : SimulationSettings) (masterScript slaveScript : String) :
    (begin c masterScript slaveScript).recording =
      Simulation.begin c masterScript slaveScript := by
  unfold begin load new Simulation.begin Simulation.load Pair.loadText Pair.startTogether
  simp only [act, collect, Recording.step, Session.done]

/-- What every text that is taken in, every update and every collection preserves holds after all
steps. -/
theorem steps_induction {P : Chronicle → Prop} (dt : Float32)
    (takeIn : ∀ ch role, P ch → P (ch.takeIn role))
    (update : ∀ ch role, P ch → P (ch.act role (.update dt)))
    (collect : ∀ ch time, P ch → P (ch.collect time)) :
    ∀ (left done : Nat) {ch : Chronicle}, P ch → P (ch.steps dt left done)
  | 0, _, _, h => h
  | left + 1, done, ch, h => by
    have hdeliver : ∀ (role : Role) {ch : Chronicle}, P ch → P (ch.deliver role) := by
      have hmany : ∀ (role : Role) (n : Nat) {ch : Chronicle}, P ch → P (ch.takeInMany role n) := by
        intro role n
        induction n with
        | zero => exact fun h => h
        | succ n ih => exact fun h => ih (takeIn _ role h)
      exact fun role => hmany role _
    have hexchanged := collect _ (Float32.ofNat done * dt) (hdeliver .slave (hdeliver .master h))
    unfold steps
    dsimp only
    split
    · exact hexchanged
    · exact steps_induction dt takeIn update collect left (done + 1)
        (collect _ _ (update _ .slave (update _ .master hexchanged)))

end Chronicle

/-- The report of a simulation is that on its chronicle, as it is after the last step. -/
theorem report_chronicle {c : SimulationSettings} {masterScript slaveScript : String}
    {report : SimulationReport} (hrun : run masterScript slaveScript c = .ok report) :
    report = (chronicle masterScript slaveScript c).recording.report report.steps c.timeStep
        report.finished ∧
      report.steps ≤ maxSteps c ∧
      (report.finished = true →
        (chronicle masterScript slaveScript c).recording.pair.isSettled = true) := by
  unfold run at hrun
  split at hrun
  · cases hrun
  · obtain ⟨n, finished, hreport, hn, hsettled⟩ := Chronicle.report_steps c.timeStep (maxSteps c) 0
      (Chronicle.begin c masterScript slaveScript)
    obtain rfl : report = (chronicle masterScript slaveScript c).recording.report n c.timeStep
        finished :=
      (Except.ok.inj hrun).symm.trans
        (Chronicle.recording_begin c masterScript slaveScript ▸ hreport)
    exact ⟨rfl, Nat.zero_add (maxSteps c) ▸ hn, hsettled⟩

/-! ## What a chronicle tells of its devices -/

namespace Chronicle

variable (ch : Chronicle) (role : Role)

/-- A task is written into the diary of the device that has it. -/
theorem diary_act_self (task : Task) : (ch.act role task).diary role = (ch.diary role).act task :=
  congrArg₂ Diary.mk (ch.recording.pair.session_after_self role _) (Function.update_self ..)

/-- The other diary is left as it is. -/
theorem diary_act_peer (task : Task) : (ch.act role task).diary role.peer = ch.diary role.peer := by
  have hne : role.peer ≠ role := by cases role <;> nofun
  exact congrArg₂ Diary.mk (ch.recording.pair.session_after_peer role _)
    (Function.update_of_ne hne _ _)

theorem diary_withInbox (texts : List String) (role' : Role) :
    (ch.withInbox role texts).diary role' = ch.diary role' :=
  congrArg (Diary.mk · _) (ch.recording.pair.session_withInbox role texts role')

/-- When the events are collected, each device has drained its own. -/
theorem diary_collect (time : Float32) :
    (ch.collect time).diary role = (ch.diary role).drained := by
  cases role <;> rfl

/-! ## What a device goes through -/

section Induction

variable {Q : Diary GridAvatar → Prop} (act : ∀ d task, Q d → Q (d.act task))

include act

/-- What every task keeps in a diary holds whichever device has the task. -/
theorem diary_act_induction {role : Role} (h : Q (ch.diary role)) (role' : Role) (task : Task) :
    Q ((ch.act role' task).diary role) := by
  obtain rfl | rfl := role.eq_or_eq_peer role'
  · rw [diary_act_self]
    exact act _ task h
  · rw [diary_act_peer]
    exact h

variable (drained : ∀ d, Q d → Q d.drained)

include drained

/-- What tasks and collections preserve of a device is true of it after all steps. -/
theorem diary_steps_induction {role : Role} (dt : Float32) (left done : Nat) {ch : Chronicle}
    (h : Q (ch.diary role)) : Q ((ch.steps dt left done).diary role) := by
  refine steps_induction (P := fun ch => Q (ch.diary role)) dt (fun ch role' h => ?_)
    (fun ch role' h => ch.diary_act_induction act h role' _) (fun ch time h => ?_) left done h
  · have hinbox : ∀ texts, Q ((ch.withInbox role' texts).diary role) := fun texts => by
      rw [diary_withInbox]
      exact h
    unfold takeIn
    split
    · exact h
    · split
      · exact diary_act_induction _ act (hinbox _) role' _
      · exact hinbox _
  · rw [diary_collect]
    exact drained _ h

/-- What tasks and collections preserve of a device, and what is true of it at first, is true of it
after the simulation. -/
theorem diary_chronicle_induction {c : SimulationSettings} {role : Role} (h : Q ⟨device c role, []⟩)
    (masterScript slaveScript : String) :
      Q ((chronicle masterScript slaveScript c).diary role) := by
  have hnew : Q ((new c).diary role) := by
    cases role <;> exact h
  have hload := diary_act_induction _ act
    (diary_act_induction _ act hnew .master (.load masterScript))
    .slave (.load slaveScript)
  have hloaded : Q ((((new c).load masterScript slaveScript).collect 0).diary role) := by
    rw [diary_collect]
    exact drained _ hload
  have hasked := diary_act_induction _ act hloaded .master .ask
  refine diary_steps_induction act drained c.timeStep (maxSteps c) 0 ?_
  rw [begin, diary_collect]
  exact drained _ hasked

end Induction

end Chronicle

end Simulation

end Tandem
