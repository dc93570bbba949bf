import Tandem.Proofs.Run.Mortality
import Tandem.Proofs.Run.Utterances

/-!
# The fate of an avatar

An avatar that is handed commands one after the other obeys them as long as it lives
(`Avatar.obeyed`). Once it is dead, it stays as it is (`Avatar.fate_of_dead`).

An operation on an executor makes ticks, and hands their commands to the own avatar. The other
device is told of those that the avatar obeys, and of nothing else (`Turn.Enacts`). So what becomes
of an own avatar, and what is told, depends on which ticks are made and on nothing else : neither on
when they are made, nor on the other device.
-/

namespace Tandem

namespace Avatar

variable {α : Type} [Avatar α]

/-- The avatar after a command, which it obeys if it is alive. -/
def obey (a : α) (u : Utterance) : α :=
  if isDead a then a else (perform a u.1 u.2).avatar

/-- The avatar after commands, one after the other. -/
def fate (a : α) (us : List Utterance) : α :=
  us.foldl obey a

/-- The commands that the avatar obeys, of those that it is handed one after the other. -/
def obeyed (a : α) : List Utterance → List Utterance
  | [] => []
  | u :: us => if isDead a then [] else u :: obeyed (obey a u) us

/-- What an avatar is handed in two parts makes its fate one after the other. -/
theorem fate_append (a : α) (us us' : List Utterance) :
    fate a (us ++ us') = fate (fate a us) us' :=
  List.foldl_append

variable {a : α}

/-- A dead avatar stays as it is. -/
theorem fate_of_dead (h : isDead a = true) : ∀ us, fate a us = a
  | [] => rfl
  | u :: us => by
    have hobey : obey a u = a := if_pos h
    rw [fate, List.foldl_cons, hobey]
    exact fate_of_dead h us

theorem obeyed_of_dead (h : isDead a = true) (us : List Utterance) : obeyed a us = [] := by
  cases us with
  | nil => rfl
  | cons => exact if_pos h

variable (a)

/-- An avatar obeys the second part as the first one has left it. -/
theorem obeyed_append (us us' : List Utterance) :
    obeyed a (us ++ us') = obeyed a us ++ obeyed (fate a us) us' := by
  induction us generalizing a with
  | nil => rfl
  | cons u us ih =>
    rw [List.cons_append, obeyed, obeyed]
    split
    · next hdead => rw [fate_of_dead hdead, obeyed_of_dead hdead, List.append_nil]
    · rw [ih, List.cons_append]
      rfl

end Avatar

theorem GridAvatar.vocabulary_fate (a : GridAvatar) (us : List Utterance) :
    (Avatar.fate a us).vocabulary = a.vocabulary := by
  induction us generalizing a with
  | nil => rfl
  | cons u us ih =>
    refine (ih (Avatar.obey a u)).trans ?_
    unfold Avatar.obey
    split
    · rfl
    · exact a.vocabulary_perform _ _

namespace Crew

variable {α : Type} [Avatar α] (k : Crew α) (u : Utterance)

/-- A command of the device itself goes to the own avatar. -/
theorem own_perform_self : (k.perform false u).own = Avatar.obey k.own u := by
  unfold perform Avatar.obey
  simp only [Bool.false_eq_true, if_false]
  split
  · rfl
  · split <;> rfl

/-- A command of the other device that is for one avatar only is none of the own avatar's. -/
theorem own_perform_remote (h : Avatar.isStatic k.own u.1 = false) :
    (k.perform true u).own = k.own := by
  unfold perform
  rw [h, if_neg Bool.false_ne_true, if_pos rfl, if_pos rfl]
  split <;> rfl

end Crew

/-- Sees the ticks, and the commands that the other device is told of. -/
def enactWatch : Watch (Tick ⊕ Utterance) where
  see
    | .tick t _ _ => some (.inl t)
    | .effect (.sent m) => m.utterance?.map .inr
    | _ => none
  see_logged _ := rfl

namespace Turn

variable {α : Type} {t t' t'' : Turn α}

/-- Two turns of which the same is seen have made the same ticks, and have told the same. -/
theorem made_told_of_seen (h : t'.seen enactWatch = t.seen enactWatch) :
    t'.ticks = t.ticks ∧ t'.told = t.told := by
  have hsee : ∀ d : Deed, tickWatch.see d = (enactWatch.see d).bind Sum.getLeft? ∧
      utteranceWatch.see d = (enactWatch.see d).bind Sum.getRight? := by
    intro d
    rcases d with _ | _ | e
    · exact ⟨rfl, rfl⟩
    · exact ⟨rfl, rfl⟩
    · cases e with
      | sent m => cases m <;> exact ⟨rfl, rfl⟩
      | performed | stepShown | runShown | logged => exact ⟨rfl, rfl⟩
  have hticks : ∀ t : Turn α, t.ticks = (t.seen enactWatch).filterMap Sum.getLeft? := fun t =>
    Watch.filterMap_see (fun d => (hsee d).1) _
  have htold : ∀ t : Turn α, t.told = (t.seen enactWatch).filterMap Sum.getRight? := fun t =>
    Watch.filterMap_see (fun d => (hsee d).2) _
  exact ⟨by rw [hticks, h, ← hticks], by rw [htold, h, ← htold]⟩

variable [Avatar α]

/-- From the first turn to the second, ticks are made, and the own avatar is handed their commands.
The other device is told of those that it obeys. -/
def Enacts (t t' : Turn α) : Prop :=
  ∃ made : List Tick, t'.ticks = t.ticks ++ made ∧
    t'.told = t.told ++ Avatar.obeyed t.exec.own (made.filterMap Tick.utterance?) ∧
    t'.exec.own = Avatar.fate t.exec.own (made.filterMap Tick.utterance?)

namespace Enacts

theorem of_same (ho : t'.exec.own = t.exec.own)
    (h : t'.seen enactWatch = t.seen enactWatch) : Enacts t t' := by
  obtain ⟨hticks, htold⟩ := made_told_of_seen h
  exact ⟨[], hticks.trans (List.append_nil _).symm, htold.trans (List.append_nil _).symm, ho⟩

theorem refl (t : Turn α) : Enacts t t := of_same rfl rfl

/-- What is enacted in two parts is enacted. -/
theorem trans (h : Enacts t t') (h' : Enacts t' t'') : Enacts t t'' := by
  obtain ⟨made, hticks, htold, hown⟩ := h
  obtain ⟨made', hticks', htold', hown'⟩ := h'
  refine ⟨made ++ made', ?_, ?_, ?_⟩
  · rw [hticks', hticks, List.append_assoc]
  · rw [htold', htold, hown, List.filterMap_append, Avatar.obeyed_append, List.append_assoc]
  · rw [hown', hown, List.filterMap_append, Avatar.fate_append]

end Enacts

theorem enacts_mapExec (t : Turn α) (f : Executor α → Executor α)
    (ho : (f t.exec).own = t.exec.own) : Enacts t (t.mapExec f) := .of_same ho rfl

theorem enacts_record (t : Turn α) (e : RunEvent) : Enacts t (t.record e) :=
  .of_same rfl ((t.seen_record _ e).trans (List.append_nil _))

theorem enacts_emit (t : Turn α) {e : Effect} (h : enactWatch.ofEffect e = []) :
    Enacts t (t.emit e) :=
  .of_same rfl (by rw [seen_emit, h, List.append_nil])

/-- A cleanup makes no tick. -/
theorem enacts_cleanup (t : Turn α) : Enacts t t.cleanup :=
  .of_same t.showsOnly_hideActive.own ((t.seen_cleanup _).trans (List.append_nil _))

theorem enacts_finish (t : Turn α) (outcome : Phase) : Enacts t (t.finish outcome) := by
  refine .of_same (t.crew_finish outcome).1 ?_
  rw [seen_finish]
  cases t.exec.policy.peerFinished <;> exact List.append_nil _

theorem enacts_begin (t : Turn α) : Enacts t t.begin := by
  refine .of_same t.crew_begin.1 ?_
  rw [seen_begin]
  cases t.exec.cleanupDue <;> exact List.append_nil _

theorem enacts_passGate (t : Turn α) (tick : Tick) : Enacts t (t.passGate tick).1 := by
  refine .of_same (t.keepsAvatars_passGate tick).own ?_
  obtain ⟨hg, -⟩ | ⟨_, hg, -, -⟩ | ⟨_, hg, -, -, -, hseen⟩ := t.passGate_cases tick
  · rw [hg]
  · rw [hg]
    rfl
  · rw [hg, hseen]
    cases t.exec.policy.owesRelease <;> exact List.append_nil _

/-- The command of a tick is handed to the own avatar. -/
theorem enacts_carryOut (t : Turn α) (tick : Tick) (kind : TickClass) :
    Enacts t (t.carryOut tick kind) := by
  obtain ⟨t', hcarry, hkeeps, -, hseen⟩ := t.carryOut_eq tick kind
  have hticks : t'.ticks = t.ticks ++ [tick] := hseen _
  have htold : t'.told = t.told := (hseen _).trans (List.append_nil _)
  have hown := hkeeps.own
  rw [hcarry]
  refine ⟨[tick], ?_⟩
  cases hw : tick.wait with
  | true =>
    have hnone : [tick].filterMap Tick.utterance? = [] := by simp [Tick.utterance?, hw]
    rw [if_pos rfl, hnone]
    exact ⟨hticks, htold.trans (List.append_nil _).symm, hown⟩
  | false =>
    have hsome : [tick].filterMap Tick.utterance? = [(tick.name, tick.args)] := by
      simp [Tick.utterance?, hw]
    rw [if_neg Bool.false_ne_true, hsome, ← hown, ← htold]
    refine ⟨?_, t'.told_dispatch _ _ _, ?_⟩
    · rw [← hticks]
      exact (t'.seen_dispatch _ _ _ _ follows_tickWatch.alike).trans (List.append_nil _)
    · exact (congrArg Crew.own (t'.crew_dispatch _ _ _)).trans (Crew.own_perform_self _ _)

/-- A tick that is made is enacted. -/
theorem enacts_makeTick (t : Turn α) (tick : Tick) : Enacts t (t.makeTick tick) := by
  have hnothing : Enacts t (t.mapExec fun e => { e with pending := .nothing }) :=
    t.enacts_mapExec _ rfl
  have hover : ∀ (t : Turn α) (kind : TickClass), Enacts t (t.passOver kind) := fun t kind => by
    refine .of_same (keepsAvatars_passOver t kind).own ?_
    rw [seen_passOver]
    cases t.exec.policy.releasesAfter kind <;> exact List.append_nil _
  exact ((hnothing.trans (enacts_carryOut _ tick _)).trans (hover _ _)).trans (enacts_emit _ rfl)

theorem enacts_advanceBy : ∀ (n : Nat) (t : Turn α), Enacts t (advanceBy n t)
  | 0, t => .refl t
  | n + 1, t => by
    unfold advanceBy
    split
    · exact enacts_finish _ _
    · split
      · exact enacts_finish _ _
      · next c tick _ =>
        have hmove : Enacts t (t.moveTo c) := t.enacts_mapExec _ rfl
        have hgate := hmove.trans (enacts_passGate _ tick)
        obtain ⟨hg, -⟩ | ⟨_, hg, -, -⟩ | ⟨_, hg, -, -, -, -⟩ := (t.moveTo c).passGate_cases tick
        · rw [hg]
          exact (hmove.trans (enacts_makeTick _ tick)).trans (enacts_advanceBy n _)
        · rw [hg] at hgate ⊢
          exact hgate
        · rw [hg] at hgate ⊢
          exact hgate

theorem enacts_run (t : Turn α) : Enacts t t.run.1 := by
  unfold run
  split
  · exact enacts_record _ _
  · exact (enacts_begin t).trans (enacts_advanceBy _ _)

theorem enacts_startTogether (t : Turn α) : Enacts t t.startTogether.1 := by
  unfold startTogether
  split
  · exact enacts_record _ _
  · exact (enacts_emit t rfl).trans (enacts_run _)

theorem enacts_passTime (t : Turn α) (dt : Float32) : Enacts t (t.passTime dt).1 :=
  .of_same (t.keepsAvatars_passTime dt).own (t.seen_passTime dt _ fun _ => rfl)

theorem enacts_update (t : Turn α) (dt : Float32) : Enacts t (t.update dt) := by
  have hnext : Enacts t t.nextUpdate := t.enacts_mapExec _ rfl
  unfold update
  split
  · exact .refl t
  · dsimp only
    split
    · exact hnext.trans (enacts_finish _ _)
    · have hage := t.nextUpdate.enacts_mapExec (fun e => { e with age := e.age.map (· + dt) }) rfl
      have htime := (hnext.trans hage).trans (enacts_passTime _ dt)
      split
      · next t' ht =>
        rw [ht] at htime
        exact htime.trans (enacts_advanceBy _ _)
      · next t' ht =>
        rw [ht] at htime
        exact htime

/-! ## What comes from the other device, and giving up -/

theorem enacts_afterRelease (t : Turn α) : Enacts t t.afterRelease :=
  (enacts_record t _).trans (enacts_mapExec _ _ rfl)

theorem enacts_afterPeerEnd (t : Turn α) : Enacts t t.afterPeerEnd := by
  have h := (enacts_record t .peerFinished).trans
    ((t.record .peerFinished).enacts_mapExec
      (fun e => { e with policy := t.exec.policy.afterPeerEnd }) rfl)
  unfold afterPeerEnd
  dsimp only
  split
  · exact h.trans (enacts_cleanup _)
  · exact h

theorem enacts_abandon (t : Turn α) : Enacts t t.abandon :=
  ((t.enacts_mapExec (fun e => { e with mayRun := false }) rfl).trans (enacts_record _ _)).trans
    (enacts_cleanup _)

/-- A command of the other device that is for one avatar only enacts nothing. -/
theorem enacts_dispatch (t : Turn α) {name : String} (args : List String)
    (h : Avatar.isStatic t.exec.own name = false) : Enacts t (t.dispatch name args true).1 := by
  refine ⟨[], ?_, t.told_dispatch _ _ _, ?_⟩
  · exact t.seen_dispatch _ _ _ _ follows_tickWatch.alike
  · exact (congrArg Crew.own (t.crew_dispatch _ _ _)).trans (Crew.own_perform_remote _ _ h)

end Turn

end Tandem
