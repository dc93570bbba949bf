import Tandem.Proofs.Run.Mortality
import Tandem.Proofs.Run.Passage
import Tandem.Proofs.Run.Twins

/-!
# Commands of the other device

A command of the other device that is not static is handed to the rival, and told to nobody. If the
rival is wired to no run flag (`Avatar.Unwired`), it makes no difference to anything but the rival
and the log : an executor that is also given such commands, at any times (`Turn.Interspersed`), does
the same as one that is not (`Turn.undisturbed`).

There is one way for them to be felt. A static command of the other device is for both avatars, but
is dropped if it finds the rival dead. So if the rival has died of the commands between, or not died
because of them, a static command may reach the own avatar in one of the two runs only
(`Turn.disturbed`).
-/

namespace Tandem

/-- Whatever commands it is handed, the avatar stops no run. -/
def Avatar.Unwired {α : Type} [Avatar α] (a : α) : Prop :=
  ∀ (commands : List Utterance) (name : String) (args : List String),
    (Avatar.perform (commands.foldl (fun a c => (Avatar.perform a c.1 c.2).avatar) a)
      name args).stopsRun = false

namespace Avatar.Unwired

variable {α : Type} [Avatar α] {a : α}

/-- An avatar that is not wired stops no run. -/
theorem stopsRun (h : Unwired a) (name : String) (args : List String) :
    (Avatar.perform a name args).stopsRun = false :=
  h [] name args

/-- No command wires an avatar. -/
theorem perform (h : Unwired a) (name : String) (args : List String) :
    Unwired (Avatar.perform a name args).avatar :=
  fun commands => h ((name, args) :: commands)

end Avatar.Unwired

/-- On a grid, this is so if no run flag was given to the avatar. -/
theorem GridAvatar.unwired {a : GridAvatar} (h : a.wired = false) : Avatar.Unwired a := by
  intro commands
  induction commands generalizing a with
  | nil => exact fun name args => a.stopsRun_of_not_wired name args h
  | cons c commands ih => exact ih ((a.wired_perform c.1 c.2).trans h)

/-- Sees all deeds but the commands that are handed to the rival, the lines that are written out and
the events that tell what has come of a command. -/
def ownWatch : Watch Deed where
  see
    | .effect (.logged _) | .effect (.performed true ..) => none
    | .event e => if e.isOfCommand then none else some (.event e)
    | d => some d
  see_logged _ := rfl

theorem ofEvent_ownWatch {e : RunEvent} (h : e.isOfCommand = true) : ownWatch.ofEvent e = [] := by
  simp [Watch.ofEvent, ownWatch, h]

theorem RunEvent.isOfCommand_verdict (command : String) (remote understood : Bool) :
    (verdict command remote understood).isOfCommand = true := by
  cases understood <;> rfl

/-- The rivals are any that stop no run, and nothing that is done to them is looked at. -/
def bystanders (α : Type) [Avatar α] : Kinship α Deed where
  scripts := Eq
  rivals a a' := Avatar.Unwired a ∧ Avatar.Unwired a'
  watch := ownWatch
  refl _ := rfl
  disabled h := h ▸ .refl Flags.disabled _
  setRunning path value h := congrArg (·.setRunning path value) h
  clearRunning h := congrArg Script.clearRunning h
  perform name args h := ⟨h.1.perform name args, h.2.perform name args⟩
  stopsRun name args h := (h.1.stopsRun name args).trans (h.2.stopsRun name args).symm
  handed _ _ _ := rfl
  told _ _ _ _ _ _ := by
    rw [ofEvent_ownWatch (RunEvent.isOfCommand_verdict ..),
      ofEvent_ownWatch (RunEvent.isOfCommand_verdict ..)]

namespace Turn

variable {α : Type} [Avatar α]

/-! ## Turns that differ in a bystander -/

namespace Kin

variable {t t' t'' : Turn α}

/-- Bystanders are kin both ways. -/
theorem symm (h : Kin (bystanders α) [] t t') : Kin (bystanders α) [] t' t where
  exec := (congrArg (fun e : Executor α =>
    { e with rival := t'.exec.rival, log := t'.exec.log }) h.exec).symm
  rivals := h.rivals.symm
  script := h.script.symm
  deeds := h.deeds.symm

/-- A bystander of a bystander is one. -/
theorem trans (h : Kin (bystanders α) [] t t') (h' : Kin (bystanders α) [] t' t'') :
    Kin (bystanders α) [] t t'' where
  exec := h.exec.trans (congrArg (fun e : Executor α =>
    { e with rival := t.exec.rival, log := t.exec.log }) h'.exec)
  rivals := ⟨h.rivals.1, h'.rivals.2⟩
  script := h.script.trans h'.script
  deeds := h.deeds.trans h'.deeds

/-- A command of the other device that is not static touches the rival and the log only. -/
theorem dispatch_remote (h : Avatar.Unwired t.exec.rival) {name : String} (args : List String)
    (hname : Avatar.isStatic t.exec.own name = false) :
    Kin (bystanders α) [] t (t.dispatch name args true).1 := by
  have hseen : ∀ {t' : Turn α} {e : RunEvent}, e.isOfCommand = true →
      t'.seen ownWatch = t.seen ownWatch →
        t.seen (bystanders α).watch = [] ++ (t'.record e).seen (bystanders α).watch := by
    intro t' e he ht'
    have hrecord : (t'.record e).seen ownWatch = t'.seen ownWatch := by
      rw [seen_record, ofEvent_ownWatch he, List.append_nil]
    exact (hrecord.trans ht').symm
  have hperform : t.perform name args true = t.performRival name args := by
    rw [Turn.perform, hname]
    rfl
  unfold Turn.dispatch
  rw [hperform]
  dsimp only
  split
  · exact ⟨rfl, ⟨h, h⟩, rfl, hseen rfl rfl⟩
  · rw [if_pos rfl]
    refine ⟨?_, ⟨h, h.perform name args⟩, rfl, hseen (RunEvent.isOfCommand_verdict ..) ?_⟩
    · have hflag : t.exec.mayRun =
          (t.exec.mayRun && !(Avatar.perform t.exec.rival name args).stopsRun) := by
        rw [h.stopsRun, Bool.not_false, Bool.and_true]
      exact congrArg (fun mayRun => { t.exec with mayRun }) hflag
    · rw [Turn.performRival, seen_emit]
      exact List.append_nil _

end Kin

/-! ## Runs with such commands in between -/

/-- From these turns on, the second one is given the orders that the first one is given, and between
them commands of the other device that are not static. Whenever both are given an order, they meet
the condition. -/
inductive Interspersed (condition : Turn α → Turn α → Order → Prop) :
    Turn α → Turn α → List Order → List Order → Prop
  | done {t t' : Turn α} : Interspersed condition t t' [] []
  | both {t t' : Turn α} {os os' : List Order} (o : Order) : condition t t' o →
    Interspersed condition (t.obey o) (t'.obey o) os os' →
    Interspersed condition t t' (o :: os) (o :: os')
  | between {t t' : Turn α} {os os' : List Order} (name : String) (args : List String) :
    Avatar.isStatic t'.exec.own name = false →
    Interspersed condition t (t'.obey (.call (.command name args))) os os' →
    Interspersed condition t t' os (.call (.command name args) :: os')

/-- If the order is a static command of the other device, it finds both rivals dead or neither. -/
def MeetAlike (t t' : Turn α) (o : Order) : Prop :=
  ∀ name args, o = .call (.command name args) → Avatar.isStatic t.exec.own name = true →
    Avatar.isDead t.exec.rival = Avatar.isDead t'.exec.rival

/-- An order that is given to both leaves them differing in a bystander. -/
theorem Kin.obey_of_meetAlike {t t' : Turn α} (h : Kin (bystanders α) [] t t') {o : Order}
    (ho : MeetAlike t t' o) : Kin (bystanders α) [] (t.obey o) (t'.obey o) := by
  by_cases hforeign : ∃ name args, o = .call (.command name args) ∧
      Avatar.isStatic t.exec.own name = false
  · -- One rival may drop the command and the other one not, but no one else can tell.
    obtain ⟨name, args, rfl, hname⟩ := hforeign
    have hname' : Avatar.isStatic t'.exec.own name = false := by rw [← h.own, hname]
    exact (Kin.dispatch_remote h.rivals.1 args hname).symm.trans
      (h.trans (Kin.dispatch_remote h.rivals.2 args hname'))
  · refine h.obey o fun name args hcall => ho name args hcall ?_
    by_contra hname
    exact hforeign ⟨name, args, hcall, Bool.eq_false_iff.mpr hname⟩

/-- Commands of the other device in between leave the two turns differing in a bystander. -/
theorem Kin.of_interspersed {t t' : Turn α} {os os' : List Order}
    (ho : Interspersed MeetAlike t t' os os') : Kin (bystanders α) [] t t' →
    Kin (bystanders α) [] (os.foldl Turn.obey t) (os'.foldl Turn.obey t') := by
  induction ho with
  | done => exact fun h => h
  | both o hmeet _ ih => exact fun h => ih (h.obey_of_meetAlike hmeet)
  | between name args hname _ ih =>
    exact fun h => ih (h.trans (Kin.dispatch_remote h.rivals.2 args hname))

/-- An executor that is also given commands of the other device that are not static, at any times,
does the same as one that is not, but for its rival and its log, if the rival stops no run and
static commands of the other device find it dead in both runs or neither. No command of the other
device is sent on. A command of this device is, once and as it is, unless the own avatar is dead. -/
theorem undisturbed (t : Turn α) {os os' : List Order} (hrival : Avatar.Unwired t.exec.rival)
    (ho : Interspersed MeetAlike t t os os') :
    (let u := os.foldl Turn.obey t
      let u' := os'.foldl Turn.obey t
      u'.exec = { u.exec with rival := u'.exec.rival, log := u'.exec.log } ∧
        u'.script = u.script ∧ u'.seen ownWatch = u.seen ownWatch) ∧
    ∀ (v : Turn α) (name : String) (args : List String),
      (v.dispatch name args true).1.seen messageWatch = v.seen messageWatch ∧
      (v.dispatch name args false).1.seen messageWatch = v.seen messageWatch ++
        if Avatar.isDead v.exec.own then [] else [.command name args] := by
  have hstart : Kin (bystanders α) [] t t := ⟨rfl, ⟨hrival, hrival⟩, rfl, rfl⟩
  have hend := (Kin.of_interspersed ho hstart).symm
  refine ⟨⟨hend.exec, hend.script, hend.deeds⟩, fun v name args => ⟨?_, ?_⟩⟩
  · rw [messages_dispatch, Bool.true_or, if_pos rfl, List.append_nil]
  · exact v.messages_dispatch name args false

/-- A device whose rival has a trap to the east of its first cell, with a script of two moves. -/
def minedAcross (wired : Bool) : Turn GridAvatar :=
  (Executor.new .master .async .standard "Continue_Sec" (.new .standard 6 false [] true)
    (.new .standard 6 true [(4, 5)] wired)).on
    ⟨[.ofName "MOVE" ["SOUTH"], .ofName "MOVE" ["SOUTH"]]⟩

/-- The other device has moved to the east. -/
def eastward : Order := .call (.command "MOVE" ["EAST"])

/-- The other device has called for both avatars to be put back. -/
def resetting : Order := .call (.command "RESET" [])

/-- The rival dies in a run, after the avatars were put back, and the run goes on. -/
theorem undisturbed_by_death :
    let t := minedAcross false
    let os := [.run, resetting, .call (.update 0.5)]
    let os' := [.run, resetting, eastward, .call (.update 0.5)]
    (Avatar.Unwired t.exec.rival ∧ Interspersed MeetAlike t t os os') ∧
      (let u := os.foldl Turn.obey t
        let u' := os'.foldl Turn.obey t
        u'.exec = { u.exec with rival := u'.exec.rival, log := u'.exec.log } ∧
          u'.script = u.script ∧ u'.seen ownWatch = u.seen ownWatch) ∧
      (os.foldl Turn.obey t).exec.rival.dead = false ∧
      (os'.foldl Turn.obey t).exec.rival.dead = true := by
  intro t os os'
  have hrival : Avatar.Unwired t.exec.rival := GridAvatar.unwired rfl
  have ho : Interspersed MeetAlike t t os os' := by
    refine .both _ nofun (.both _ (fun _ _ _ _ => ?_) (.between _ _ ?_ (.both _ nofun .done)))
    · rfl
    · decide +kernel
  refine ⟨⟨hrival, ho⟩, (undisturbed t hrival ho).1, ?_, ?_⟩
  · decide +kernel
  · decide +kernel

/-- If the rival dies of a command in between, the own avatar is not put back when the other device
calls for it. And a rival that is wired to the run flag stops the run when it dies. -/
theorem disturbed :
    (let t := minedAcross false
      let os := [.run, resetting]
      let os' := [.run, eastward, resetting]
      (Avatar.Unwired t.exec.rival ∧ Interspersed (fun _ _ _ => True) t t os os') ∧
        (os.foldl Turn.obey t).exec.own.position = (0, 0) ∧
        (os'.foldl Turn.obey t).exec.own.position = (0, 1)) ∧
    (let t := minedAcross true
      let os := [.run, .call (.update 0.5)]
      let os' := [.run, eastward, .call (.update 0.5)]
      Interspersed MeetAlike t t os os' ∧
        (os.foldl Turn.obey t).exec.phase = .completed ∧
        (os'.foldl Turn.obey t).exec.phase = .interrupted) := by
  refine ⟨⟨⟨GridAvatar.unwired rfl, ?_⟩, ?_, ?_⟩, ?_, ?_, ?_⟩
  · refine .both _ trivial (.between _ _ ?_ (.both _ trivial .done))
    decide +kernel
  · decide +kernel
  · decide +kernel
  · refine .both _ nofun (.between _ _ ?_ (.both _ nofun .done))
    decide +kernel
  · decide +kernel
  · decide +kernel

end Turn

end Tandem
