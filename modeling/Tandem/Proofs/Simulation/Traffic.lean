import Tandem.Proofs.Simulation.Diary

/-!
# The traffic of a simulation

At every moment of a simulation, the messages that a device has sent are those that the other one
has taken in, and then those that are still on their way, in this order (`Chronicle.Flows.mail`). A
command keeps its name and its arguments on its way because all that devices tell of are commands of
their scripts, which have some property `P` that makes them commands of the vocabulary.

Only the master is asked for a run, and only once. So each device is called to run at most once, and
stays `Diary.Regular` (`Chronicle.Flows.takeIn`, `Chronicle.Flows.update`).
-/

namespace Tandem

variable {P : Utterance → Prop}

/-- What is true of a device of a pair and of the other one is true of both. -/
theorem Role.forall_of_peer {Q : Role → Prop} (role : Role) (h : Q role) (h' : Q role.peer) :
    ∀ role', Q role' := by
  intro role'
  obtain rfl | rfl := role'.eq_or_eq_peer role
  · exact h
  · exact h'

/-! ## What a task tells the other device -/

namespace Session

variable {α : Type} [Avatar α] {s : Session α}

/-- On any task, a device tells of commands of its script, and leaves the script as it is but for
its running flags. -/
theorem plays_doing (h : s.lend.script.Gives P) (task : Task) :
    (∀ u ∈ (s.doing task).told, P u) ∧
      (s.doing task).script.clearRunning = s.lend.script.clearRunning := by
  have hplays : ∀ {t : Turn α}, Turn.Plays P s.lend t →
      (∀ u ∈ t.told, P u) ∧ t.script.clearRunning = s.lend.script.clearRunning :=
    fun ht => ⟨ht.forall_told (List.forall_mem_nil _), ht.script⟩
  cases task with
  | load => exact hplays s.lend.plays_abandon
  | ask =>
    rw [doing, asking]
    split
    · exact hplays (Turn.plays_startTogether h)
    · exact hplays (.refl _)
  | take m =>
    cases m with
    | command name args =>
      rw [doing, receiving, Turn.told_dispatch, Turn.script_dispatch]
      exact ⟨List.forall_mem_nil _, rfl⟩
    | unlock => exact hplays s.lend.plays_afterRelease
    | finish => exact hplays s.lend.plays_afterPeerEnd
    | run =>
      unfold doing receiving
      dsimp only
      split
      · exact hplays (Turn.plays_run h)
      · exact hplays (.refl _)
  | update dt =>
    rw [doing, updating]
    split
    · exact hplays (Turn.plays_update h dt)
    · exact hplays (.refl _)

end Session

namespace Diary

theorem asks_act (d : Diary GridAvatar) (task : Task) :
    (d.act task).asks = d.asks + if task.asks then 1 else 0 := by
  rw [asks, act, List.countP_append, List.countP_singleton, asks]

/-- What is true of a device whose script asks for these ticks, with commands that all have the
property. -/
structure Orderly (P : Utterance → Prop) (whole : List Tick) (d : Diary GridAvatar) : Prop
    extends d.Regular whole where
  gives : d.session.lend.script.Gives P
  told : ∀ u ∈ d.told, P u

namespace Orderly

variable {whole : List Tick} {d : Diary GridAvatar} {task : Task}

/-- A task keeps the diary in order, unless it starts a second run. -/
theorem act (h : d.Orderly P whole) (hk : task.keepsScript = true)
    (hcalls : task.calls = true → d.calls = 0) : (d.act task).Orderly P whole := by
  obtain ⟨htold, hscript⟩ := Session.plays_doing h.gives task
  refine ⟨h.toRegular.act hk hcalls, ?_, ?_⟩
  · rw [show (d.act task).session.lend = _ from Session.lend_done h.loaded hk]
    exact h.gives.congr hscript
  · rw [Diary.told, seen_act]
    exact List.forall_mem_append.mpr ⟨h.told, htold⟩

theorem drained (h : d.Orderly P whole) : d.drained.Orderly P whole :=
  ⟨h.toRegular.drained, h.gives, h.told⟩

end Orderly

/-- A device is called to run by whoever asks for a run of both, and by the other device. -/
theorem calls_eq (d : Diary GridAvatar) : d.calls = d.asks + d.received.count .run := by
  obtain ⟨session, past⟩ := d
  unfold calls asks received
  dsimp only
  induction past with
  | nil => rfl
  | cons o past ih =>
    have htask : (if o.task.calls then 1 else 0) = (if o.task.asks then 1 else 0) +
        o.task.message?.toList.count .run := by
      cases o.task with
      | take m => cases m <;> rfl
      | load | ask | update => rfl
    have hmessages : (past.filterMap (·.task.message?)).count .run +
        o.task.message?.toList.count .run =
          ((o :: past).filterMap (·.task.message?)).count .run := by
      rw [List.filterMap_cons]
      cases o.task.message? with
      | none => rfl
      | some m =>
        rw [Option.toList_some, List.count_cons, List.count_cons, List.count_nil, Nat.zero_add]
    rw [List.countP_cons, List.countP_cons, ih, htask, ← hmessages]
    omega

end Diary

/-! ## What flows in a chronicle -/

namespace Simulation

namespace Chronicle

variable {v : Vocabulary} {whole : Role → List Tick} {ch ch' : Chronicle} {role : Role}
  {task : Task}

/-! ## The mail -/

/-- The other device has sent what the device of that role has taken in, then those messages, and
then what is on its way to it. -/
def Carries (ch : Chronicle) (role : Role) (ms : List Message) : Prop :=
  (ch.diary role).received ++ (ms ++ ch.link.mail role) = (ch.diary role.peer).sent

/-- The first text on its way to the device is on its way no more. -/
theorem Carries.withInbox {text : String} {rest : List String} (h : ch.Carries role [])
    (hin : ch.link.inbox role = text :: rest) :
    (ch.withInbox role rest).Carries role (Message.decode? text).toList := by
  have hmail := ch.recording.pair.mail_withInbox role hin
  unfold Carries at h ⊢
  rw [diary_withInbox, diary_withInbox, ← h, List.nil_append]
  exact congrArg ((ch.diary role).received ++ ·) hmail.symm

theorem Carries.withInbox_peer (h : ch.Carries role.peer []) (texts : List String) :
    (ch.withInbox role texts).Carries role.peer [] := by
  have hmail := ch.recording.pair.mail_withInbox_peer role texts
  unfold Carries at h ⊢
  rw [diary_withInbox, diary_withInbox, ← h]
  exact congrArg (fun ms => (ch.diary role.peer).received ++ ([] ++ ms)) hmail

/-- What the task is about has been taken in. -/
theorem Carries.act_self (h : ch.Carries role task.message?.toList) :
    (ch.act role task).Carries role [] := by
  have hmail : (ch.act role task).link.mail role = ch.link.mail role :=
    ch.link.mail_sendAll_self role _
  rw [Carries, diary_act_self, diary_act_peer, Diary.received_act, hmail, ← h, List.append_assoc]
  rfl

/-- What is sent about the task is on its way. -/
theorem Carries.act_peer (h : ch.Carries role.peer []) (hv : v.check = .ok ())
    (hspeaks : ∀ u ∈ ((ch.diary role).session.doing task).told, v.Speaks u.1 u.2) :
    (ch.act role task).Carries role.peer [] := by
  have hmessages := (ch.diary role).session.messages_done task
  rw [Turn.told_eq, ← hmessages] at hspeaks
  have hmail : (ch.act role task).link.mail role.peer = ch.link.mail role.peer ++
      ((ch.diary role).session.doing task).seen messageWatch := by
    rw [← hmessages]
    exact ch.link.mail_sendAll_peer hv role hspeaks
  unfold Carries at h ⊢
  rw [Role.peer_peer] at h ⊢
  rw [diary_act_self, diary_act_peer, hmail, Diary.sent, Diary.seen_act, ← Diary.sent, ← h]
  simp only [List.append_assoc, List.nil_append]

/-! ## Whatever happens -/

/-- What is true of every moment of a simulation whose scripts ask for these ticks, with commands
that all have the property. -/
structure Flows (P : Utterance → Prop) (whole : Role → List Tick) (ch : Chronicle) : Prop where
  orderly : ∀ role, (ch.diary role).Orderly P (whole role)
  asks : ∀ role, (ch.diary role).asks + (ch.diary role.peer).asks = 1
  mail : ∀ role, ch.Carries role []

/-- A device that is about to take in a call to run has not been called before. -/
theorem calls_eq_zero (hregular : (ch.diary role.peer).Regular (whole role.peer))
    (hasks : (ch.diary role).asks + (ch.diary role.peer).asks = 1)
    (hmail : ch.Carries role [.run]) : (ch.diary role).calls = 0 := by
  have hcount := hregular.count_run
  rw [← hmail, List.count_append, List.count_append, List.count_singleton_self] at hcount
  rw [Diary.calls_eq]
  omega

/-- A task of one device keeps both diaries in order. -/
theorem orderly_act (h : ∀ role, (ch.diary role).Orderly P (whole role))
    (hk : task.keepsScript = true) (hcalls : task.calls = true → (ch.diary role).calls = 0) :
    ∀ role', ((ch.act role task).diary role').Orderly P (whole role') := by
  refine role.forall_of_peer ?_ ?_
  · rw [diary_act_self]
    exact (h role).act hk hcalls
  · rw [diary_act_peer]
    exact h role.peer

/-- What a task sends is under way to the other device, and the message that it took is not any
more. -/
theorem carries_act (hv : v.check = .ok ()) (hP : ∀ u, P u → v.Speaks u.1 u.2)
    (hgives : (ch.diary role).session.lend.script.Gives P)
    (hself : ch.Carries role task.message?.toList) (hpeer : ch.Carries role.peer []) :
    ∀ role', (ch.act role task).Carries role' [] :=
  role.forall_of_peer hself.act_self <| hpeer.act_peer hv fun u hu =>
    hP u ((Session.plays_doing hgives task).1 u hu)

theorem orderly_collect (h : ∀ role, (ch.diary role).Orderly P (whole role)) (time : Float32)
    (role : Role) : ((ch.collect time).diary role).Orderly P (whole role) := by
  rw [diary_collect]
  exact (h role).drained

theorem carries_collect (h : ∀ role, ch.Carries role []) (time : Float32) (role : Role) :
    (ch.collect time).Carries role [] := by
  rw [Carries, diary_collect, diary_collect]
  exact h role

/-- A device takes in a message that was the first one on its way to it, or time passes for it. -/
theorem flows_act (hv : v.check = .ok ()) (hP : ∀ u, P u → v.Speaks u.1 u.2)
    (horderly : ∀ role, (ch.diary role).Orderly P (whole role))
    (hasks : ∀ role, (ch.diary role).asks + (ch.diary role.peer).asks = 1)
    (hself : ch.Carries role task.message?.toList) (hpeer : ch.Carries role.peer [])
    (hk : task.keepsScript = true) (ha : task.asks = false) :
    (ch.act role task).Flows P whole := by
  have hcalls : task.calls = true → (ch.diary role).calls = 0 := by
    intro hc
    cases task with
    | take m =>
      cases m with
      | run => exact calls_eq_zero (horderly role.peer).toRegular (hasks role) hself
      | command | unlock | finish => cases hc
    | ask => cases ha
    | load | update => cases hc
  have hact : ((ch.diary role).act task).asks = (ch.diary role).asks := by
    rw [Diary.asks_act, ha]
    rfl
  refine ⟨orderly_act horderly hk hcalls, role.forall_of_peer ?_ ?_,
    carries_act hv hP (horderly role).gives hself hpeer⟩
  · rw [diary_act_self, diary_act_peer, hact]
    exact hasks role
  · rw [Role.peer_peer, diary_act_self, diary_act_peer, hact, Nat.add_comm]
    exact hasks role

/-- A device that was not called to run yet asks for a run of both. -/
theorem flows_ask (hv : v.check = .ok ()) (hP : ∀ u, P u → v.Speaks u.1 u.2)
    (horderly : ∀ role, (ch.diary role).Orderly P (whole role))
    (hcarries : ∀ role, ch.Carries role []) (hcalls : ∀ role, (ch.diary role).calls = 0)
    (role : Role) : (ch.act role .ask).Flows P whole := by
  have hasks : ∀ role, (ch.diary role).asks = 0 := fun role => by
    have hle := (ch.diary role).calls_eq
    rw [hcalls] at hle
    omega
  have hact : ((ch.act role .ask).diary role).asks + ((ch.act role .ask).diary role.peer).asks
      = 1 := by
    rw [diary_act_self, diary_act_peer, Diary.asks_act, hasks, hasks]
    rfl
  refine ⟨orderly_act horderly rfl fun _ => hcalls role, role.forall_of_peer hact ?_,
    carries_act hv hP (horderly role).gives (hcarries role) (hcarries role.peer)⟩
  rw [Role.peer_peer, Nat.add_comm]
  exact hact

namespace Flows

/-- An update lets the messages flow. -/
theorem update (h : ch.Flows P whole) (hv : v.check = .ok ()) (hP : ∀ u, P u → v.Speaks u.1 u.2)
    (role : Role) (dt : Float32) : (ch.act role (.update dt)).Flows P whole :=
  flows_act hv hP h.orderly h.asks (h.mail role) (h.mail role.peer) rfl rfl

/-- Taking in a message lets the messages flow. -/
theorem takeIn (h : ch.Flows P whole) (hv : v.check = .ok ()) (hP : ∀ u, P u → v.Speaks u.1 u.2)
    (role : Role) : (ch.takeIn role).Flows P whole := by
  unfold Chronicle.takeIn
  cases hin : ch.link.inbox role with
  | nil => exact h
  | cons text rest =>
    have horderly : ∀ role', ((ch.withInbox role rest).diary role').Orderly P (whole role') :=
      fun role' => by
        rw [diary_withInbox]
        exact h.orderly role'
    have hasks : ∀ role', ((ch.withInbox role rest).diary role').asks +
        ((ch.withInbox role rest).diary role'.peer).asks = 1 := fun role' => by
      rw [diary_withInbox, diary_withInbox]
      exact h.asks role'
    have hself := (h.mail role).withInbox hin
    have hpeer := (h.mail role.peer).withInbox_peer rest
    dsimp only
    cases hd : Message.decode? text with
    | none =>
      rw [hd] at hself
      exact ⟨horderly, hasks, role.forall_of_peer hself hpeer⟩
    | some m =>
      rw [hd] at hself
      exact flows_act hv hP horderly hasks hself hpeer rfl rfl

theorem collect (h : ch.Flows P whole) (time : Float32) : (ch.collect time).Flows P whole := by
  refine ⟨orderly_collect h.orderly time, fun role => ?_, carries_collect h.mail time⟩
  rw [diary_collect, diary_collect]
  exact h.asks role

end Flows

end Chronicle

/-! ## A simulation from its beginning -/

/-- The texts of the scripts of both devices. -/
def texts (masterScript slaveScript : String) : Role → String
  | .master => masterScript
  | .slave => slaveScript

/-- The scripts of both devices. -/
def scripts (c : SimulationSettings) (masterScript slaveScript : String) (role : Role) : Script :=
  (Script.ofText c.vocabulary (texts masterScript slaveScript role)).script

/-- The ticks that the scripts of both devices ask for. -/
def wholes (c : SimulationSettings) (masterScript slaveScript : String) (role : Role) : List Tick :=
  (scripts c masterScript slaveScript role).expansion
    ⟨c.vocabulary.waitCommand, c.timings.ticksPerSecond⟩

namespace Chronicle

theorem diary_load (c : SimulationSettings) (masterScript slaveScript : String) (role : Role) :
    ((new c).load masterScript slaveScript).diary role =
      Diary.opening c role (texts masterScript slaveScript role) := by
  unfold load
  cases role with
  | master =>
    have hpeer := diary_act_peer ((new c).act .master (.load masterScript)) .slave
      (.load slaveScript)
    exact hpeer.trans (diary_act_self ..)
  | slave =>
    have hpeer := diary_act_peer (new c) .master (.load masterScript)
    rw [diary_act_self]
    exact congrArg (Diary.act · _) hpeer

/-- A device that has loaded a script has done nothing else. -/
theorem orderly_load {c : SimulationSettings} {masterScript slaveScript : String}
    (hgives : ∀ role, (scripts c masterScript slaveScript role).Gives P) (role : Role) :
    (((new c).load masterScript slaveScript).diary role).Orderly P
      (wholes c masterScript slaveScript role) := by
  have hempty : (device c role).lend.script.Gives P := fun _ _ _ ht => nomatch ht
  rw [diary_load]
  refine ⟨Diary.regular_opening .., hgives role, ?_⟩
  rw [Diary.told, Diary.opening, Diary.seen_act]
  exact (Session.plays_doing hempty (.load (texts masterScript slaveScript role))).1

theorem carries_load {c : SimulationSettings} (hv : c.vocabulary.check = .ok ())
    (masterScript slaveScript : String) :
    ∀ role, ((new c).load masterScript slaveScript).Carries role [] := by
  have hempty : ∀ role, ((new c).diary role).session.lend.script.Gives
      fun u => c.vocabulary.Speaks u.1 u.2 := by
    intro role _ _ _ ht
    cases role <;> cases ht
  have hnew : ∀ role, (new c).Carries role [] := by
    intro role
    cases role <;> rfl
  have hmaster : ∀ role, ((new c).act .master (.load masterScript)).Carries role [] :=
    carries_act hv (fun _ hu => hu) (hempty .master) (hnew .master) (hnew .slave)
  have hpeer := diary_act_peer (new c) .master (.load masterScript)
  have hgives : (((new c).act .master (.load masterScript)).diary .slave).session.lend.script.Gives
      fun u => c.vocabulary.Speaks u.1 u.2 := hpeer.symm ▸ hempty .slave
  exact carries_act hv (fun _ hu => hu) hgives (hmaster .slave) (hmaster .master)

/-- Before the first step, the master has been asked for a run of both. -/
theorem flows_begin {c : SimulationSettings} {masterScript slaveScript : String}
    (hv : c.vocabulary.check = .ok ()) (hP : ∀ u, P u → c.vocabulary.Speaks u.1 u.2)
    (hgives : ∀ role, (scripts c masterScript slaveScript role).Gives P) :
    (begin c masterScript slaveScript).Flows P (wholes c masterScript slaveScript) := by
  refine (flows_ask hv hP (orderly_collect (orderly_load hgives) 0)
    (carries_collect (carries_load hv masterScript slaveScript) 0)
    (fun role => ?_) .master).collect 0
  rw [diary_collect, diary_load]
  exact Diary.calls_opening ..

end Chronicle

end Simulation

end Tandem
