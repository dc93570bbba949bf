import Tandem.Proofs.Run.Logbook
import Tandem.Proofs.Simulation.Outcome

/-!
# What is collected in a simulation

The events of a device are collected between the steps of a simulation, and its log keeps only so
many of them until then. What the device records from one collection to the next is a frame
(`Simulation.frames`), so of each frame the last events are collected, and the others are lost
(`Simulation.collects_chronicle`).

What a device has recorded is read off its diary, which forgets nothing. A chronicle that goes on
from another one records events (`Chronicle.GoesOn`), and a collection takes what the logs have kept
of them (`Chronicle.Collects.collect`).
-/

namespace Tandem

/-- Whatever a device is given to do, its executor passes on to, after another update of its log has
begun if one begins. -/
theorem Session.passage_doing {α : Type} [Avatar α] (s : Session α) (task : Task) :
    ∃ begins, Turn.Passage (s.lend.nextUpdateIf begins) (s.doing task) := by
  have hstill : ∃ begins, Turn.Passage (s.lend.nextUpdateIf begins) s.lend := ⟨false, .refl _⟩
  cases task with
  | load => exact ⟨false, Turn.passage_abandon _⟩
  | ask =>
    show ∃ begins, Turn.Passage (s.lend.nextUpdateIf begins)
      (if s.store.isLoaded then s.lend.startTogether.1 else s.lend)
    split
    · exact ⟨_, Turn.passage_startTogether _⟩
    · exact hstill
  | take m =>
    cases m with
    | command name args => exact ⟨false, .dispatch name args true⟩
    | unlock => exact ⟨false, Turn.passage_afterRelease _⟩
    | finish => exact ⟨false, Turn.passage_afterPeerEnd _⟩
    | run =>
      show ∃ begins, Turn.Passage (s.lend.nextUpdateIf begins)
        (if s.store.isLoaded then s.lend.run.1 else s.lend)
      split
      · exact ⟨_, Turn.passage_run _⟩
      · exact hstill
  | update dt =>
    show ∃ begins, Turn.Passage (s.lend.nextUpdateIf begins)
      (if s.store.isLoaded then s.lend.update dt else s.lend)
    split
    · exact ⟨_, Turn.passage_update _ dt⟩
    · exact hstill

namespace Diary

variable {α : Type}

/-- The events that the device has recorded. -/
def events (d : Diary α) : List RunEvent := d.seen eventWatch

/-- What the device has recorded. -/
def ledger (d : Diary α) : Ledger := ⟨d.events, d.session.exec.log⟩

variable [Avatar α]

/-- A task adds to the ledger and takes nothing away. -/
theorem adds_act (d : Diary α) (task : Task) :
    ∃ es, Ledger.Adds es d.ledger (d.act task).ledger := by
  obtain ⟨begins, hdoing⟩ := d.session.passage_doing task
  obtain ⟨es, hdone⟩ := hdoing.adds
  have hes := (d.session.lend.adds_nextUpdateIf begins).trans hdone
  rw [List.nil_append] at hes
  have hnew : (d.session.doing task).seen eventWatch = es := hes.events
  refine ⟨es, ?_, fun past hp => ?_⟩
  · show (d.act task).seen eventWatch = d.seen eventWatch ++ es
    rw [seen_act, hnew]
  · show (d.act task).session.exec.log.Keeps (past ++ es)
    rw [act, d.session.exec_done task]
    exact hes.keeps past hp

end Diary

namespace Simulation

namespace Chronicle

/-- The events that were collected from the device of that role. -/
def collected (ch : Chronicle) : Role → List RunEvent
  | .master => ch.recording.masterEvents.toList.map (·.event)
  | .slave => ch.recording.slaveEvents.toList.map (·.event)

/-- The events that the device has recorded from the first chronicle to the second. -/
def since (ch ch' : Chronicle) (role : Role) : List RunEvent :=
  (ch'.diary role).events.drop (ch.diary role).events.length

/-- The second chronicle goes on from the first one : each device records events, and none are
collected. -/
structure GoesOn (ch ch' : Chronicle) : Prop where
  adds : ∀ role, ∃ es, Ledger.Adds es (ch.diary role).ledger (ch'.diary role).ledger
  collected : ∀ role, ch'.collected role = ch.collected role

namespace GoesOn

variable {ch ch' ch'' : Chronicle}

theorem refl (ch : Chronicle) : GoesOn ch ch :=
  ⟨fun _ => ⟨[], .refl _⟩, fun _ => rfl⟩

theorem trans (h : GoesOn ch ch') (h' : GoesOn ch' ch'') : GoesOn ch ch'' := by
  refine ⟨fun role => ?_, fun role => (h'.collected role).trans (h.collected role)⟩
  obtain ⟨es, hes⟩ := h.adds role
  obtain ⟨es', hes'⟩ := h'.adds role
  exact ⟨es ++ es', hes.trans hes'⟩

end GoesOn

variable (ch : Chronicle)

/-- A task lets the chronicle go on. -/
theorem goesOn_act (role : Role) (task : Task) : GoesOn ch (ch.act role task) := by
  refine ⟨role.forall_of_peer ?_ ?_, fun role' => by cases role' <;> rfl⟩
  · rw [diary_act_self]
    exact (ch.diary role).adds_act task
  · rw [diary_act_peer]
    exact ⟨[], .refl _⟩

theorem goesOn_takeIn (role : Role) : GoesOn ch (ch.takeIn role) := by
  have hinbox : ∀ texts, GoesOn ch (ch.withInbox role texts) := fun texts => by
    refine ⟨fun role' => ?_, fun role' => by cases role' <;> rfl⟩
    rw [diary_withInbox]
    exact ⟨[], .refl _⟩
  unfold takeIn
  split
  · exact .refl ch
  · split
    · exact (hinbox _).trans (goesOn_act _ role _)
    · exact hinbox _

theorem goesOn_takeInMany (role : Role) : ∀ (n : Nat) (ch : Chronicle),
    GoesOn ch (ch.takeInMany role n)
  | 0, ch => .refl ch
  | n + 1, ch => (ch.goesOn_takeIn role).trans (goesOn_takeInMany role n _)

/-- An exchange of messages lets the chronicle go on. -/
theorem goesOn_exchange : GoesOn ch ch.exchange :=
  (goesOn_takeInMany .master _ ch).trans (goesOn_takeInMany .slave _ _)

theorem goesOn_pass (dt : Float32) : GoesOn ch (ch.pass dt) :=
  (ch.goesOn_act .master _).trans (goesOn_act _ .slave _)

/-! ## Collections -/

/-- A collection takes what is in the log. -/
theorem collected_collect (time : Float32) (role : Role) : (ch.collect time).collected role =
    ch.collected role ++ (ch.diary role).session.exec.log.events.toList := by
  have hmap : ∀ es : List RunEvent, (es.map (TimedEvent.mk time)).map (·.event) = es := fun es => by
    rw [List.map_map]
    exact List.map_id es
  cases role with
  | master =>
    refine (congrArg _ (Array.toList_appendList ..)).trans (List.map_append.trans ?_)
    rw [hmap]
    rfl
  | slave =>
    refine (congrArg _ (Array.toList_appendList ..)).trans (List.map_append.trans ?_)
    rw [hmap]
    rfl

/-- Nothing is in the log of the device, and the collections so far have taken the last events of
each of the frames. -/
structure Collects (frames : List (List RunEvent)) (ch : Chronicle) (role : Role) : Prop where
  keeps : (ch.diary role).session.exec.log.Keeps []
  events : (ch.diary role).events = frames.flatten
  collected : ch.collected role = frames.flatMap (·.rtake EventLog.eventCap)

variable {ch}

/-- What is recorded from one collection to the next is another frame. -/
theorem Collects.collect {frames : List (List RunEvent)} {role : Role} (h : ch.Collects frames role)
    {ch' : Chronicle} (hon : GoesOn ch ch') (time : Float32) :
    (ch'.collect time).Collects (frames ++ [ch.since ch' role]) role := by
  obtain ⟨es, hes⟩ := hon.adds role
  have hevents : (ch'.diary role).events = (ch.diary role).events ++ es := hes.events
  have hsince : ch.since ch' role = es := by
    rw [since, hevents, List.drop_left]
  -- The log was empty when the frame began, so what it keeps now is the end of the frame.
  have hlog : (ch'.diary role).session.exec.log.events.toList = es.rtake EventLog.eventCap :=
    hes.keeps [] h.keeps
  rw [hsince]
  refine ⟨?_, ?_, ?_⟩
  · rw [diary_collect]
    exact (List.rtake_nil (n := EventLog.eventCap)).symm
  · have hdrained : ((ch'.collect time).diary role).events = (ch'.diary role).events := by
      rw [diary_collect]
      rfl
    rw [hdrained, hevents, h.events, List.flatten_append, List.flatten_singleton]
  · rw [collected_collect, hlog, hon.collected, h.collected, List.flatMap_append,
      List.flatMap_singleton]

/-- The frames of a device in at most that many steps after the first `done` ones. -/
def stepFrames (dt : Float32) (role : Role) : Nat → Nat → Chronicle → List (List RunEvent)
  | 0, _, _ => []
  | left + 1, done, ch =>
    let exchanged := ch.exchange.collect (Float32.ofNat done * dt)
    ch.since ch.exchange role ::
      if exchanged.recording.pair.isSettled then []
      else
        exchanged.since (exchanged.pass dt) role ::
          stepFrames dt role left (done + 1)
            ((exchanged.pass dt).collect (Float32.ofNat (done + 1) * dt))

/-- The steps of a simulation collect frame after frame. -/
theorem Collects.steps (dt : Float32) {role : Role} : ∀ (left done : Nat) {ch : Chronicle}
    {frames : List (List RunEvent)}, ch.Collects frames role →
      (ch.steps dt left done).Collects (frames ++ stepFrames dt role left done ch) role
  | 0, _, _, frames, h => by
    rw [stepFrames, List.append_nil]
    exact h
  | left + 1, done, ch, frames, h => by
    have hexchanged := h.collect ch.goesOn_exchange (Float32.ofNat done * dt)
    unfold Chronicle.steps stepFrames
    dsimp only
    split
    · exact hexchanged
    · have hpassed := hexchanged.collect (goesOn_pass _ dt) (Float32.ofNat (done + 1) * dt)
      have hsteps := hpassed.steps dt left (done + 1)
      rw [List.append_assoc, List.append_assoc] at hsteps
      exact hsteps

/-- There are two frames to a step at most. -/
theorem length_stepFrames_le (dt : Float32) (role : Role) : ∀ (left done : Nat) (ch : Chronicle),
    (stepFrames dt role left done ch).length ≤ 2 * left
  | 0, _, _ => Nat.le_refl 0
  | left + 1, done, ch => by
    unfold stepFrames
    dsimp only
    split
    · rw [List.length_singleton]
      omega
    · have hrest := length_stepFrames_le dt role left (done + 1)
        (((ch.exchange.collect (Float32.ofNat done * dt)).pass dt).collect
          (Float32.ofNat (done + 1) * dt))
      rw [List.length_cons, List.length_cons]
      omega

/-- Both scripts are loaded, and what the devices have recorded of that is collected. -/
def loaded (c : SimulationSettings) (masterScript slaveScript : String) : Chronicle :=
  ((new c).load masterScript slaveScript).collect 0

end Chronicle

/-- The frames of a device in the run of two scripts against each other : what it has recorded from
one collection to the next. -/
def frames (masterScript slaveScript : String) (c : SimulationSettings) (role : Role) :
    List (List RunEvent) :=
  let loaded := Chronicle.loaded c masterScript slaveScript
  (Chronicle.new c).since ((Chronicle.new c).load masterScript slaveScript) role ::
    loaded.since (loaded.act .master .ask) role ::
      Chronicle.stepFrames c.timeStep role (maxSteps c) 0
        (Chronicle.begin c masterScript slaveScript)

variable (masterScript slaveScript : String) (c : SimulationSettings) (role : Role)

/-- Each device has recorded the events of its frames, and the last ones of each frame were
collected. -/
theorem collects_chronicle : (chronicle masterScript slaveScript c).Collects
    (frames masterScript slaveScript c role) role := by
  have hnew : (Chronicle.new c).Collects [] role := by
    cases role <;> exact ⟨rfl, rfl, rfl⟩
  have hload : Chronicle.GoesOn (Chronicle.new c)
    ((Chronicle.new c).load masterScript slaveScript) :=
    (Chronicle.goesOn_act _ .master _).trans (Chronicle.goesOn_act _ .slave _)
  have hbegin := (hnew.collect hload 0).collect (Chronicle.goesOn_act _ .master .ask) 0
  exact hbegin.steps c.timeStep (maxSteps c) 0

/-- There are two frames before the first step, and at most two in each step. -/
theorem length_frames_le :
    (frames masterScript slaveScript c role).length ≤ 2 + 2 * maxSteps c := by
  have hsteps := Chronicle.length_stepFrames_le c.timeStep role (maxSteps c) 0
    (Chronicle.begin c masterScript slaveScript)
  rw [frames, List.length_cons, List.length_cons]
  omega

end Simulation

end Tandem
