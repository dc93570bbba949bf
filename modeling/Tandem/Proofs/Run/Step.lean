import Tandem.Proofs.Run.Career
import Tandem.Proofs.Script.Places
import Mathlib.Logic.Relation

/-!
# The steps of a career

Whatever order an executor is given while its script is left alone, it carries it out in steps of
few kinds (`Turn.Step`) : it starts, waits, holds a tick back or makes it, ends its run, hands on a
command, takes in what the other device sends, or gives up. A step comes with what is true when it
is taken : ticks are only made in a run, and only of leaves of the script. So what one step
preserves is preserved by every order (`Turn.steps_obey`) and in every career (`Career.preserve`).
-/

namespace Tandem

/-- From the second executor to the first one, what decides whether there is a run and what is shown
of it has not changed. -/
structure Executor.SameRun {α : Type} (e e' : Executor α) : Prop where
  phase : e.phase = e'.phase
  policy : e.policy = e'.policy
  waitCommand : e.waitCommand = e'.waitCommand
  shownTop : e.shownTop = e'.shownTop
  shownChild : e.shownChild = e'.shownChild

/-- The script that is lent by the order, if it is an order to lend one. -/
def Order.lent? : Order → Option Script
  | lend s => some s
  | _ => none

namespace Turn

variable {α : Type} [Avatar α]

/-- A step of an executor whose script is left alone. -/
inductive Step : Turn α → Turn α → Prop
  /-- The executor is changed in what its run waits for, in its flag or in its log. -/
  | adjust {t : Turn α} (f : Executor α → Executor α) :
    (f t.exec).SameRun t.exec → Step t (t.mapExec f)
  | refuse {t : Turn α} : Step t (t.record .runRejected)
  | ask {t : Turn α} : Step t (t.send .run)
  | dispatch {t : Turn α} (name : String) (args : List String) (remote : Bool) :
    Step t (t.dispatch name args remote).1
  | begin {t : Turn α} : t.exec.isRunning = false → Step t t.begin
  | gate {t : Turn α} (tick : Tick) : t.exec.isRunning = true → Step t (t.passGate tick).1
  | tick {t : Turn α} (tick : Tick) :
    t.exec.isRunning = true → tick.IsOf t.script → Step t (t.makeTick tick)
  | wait {t : Turn α} (dt : Float32) : t.exec.isRunning = true → Step t (t.passTime dt).1
  | finish {t : Turn α} (outcome : Phase) :
    t.exec.isRunning = true → outcome = .completed ∨ outcome = .interrupted →
      Step t (t.finish outcome)
  | release {t : Turn α} : Step t t.afterRelease
  | peerEnd {t : Turn α} : Step t t.afterPeerEnd
  | abandon {t : Turn α} : Step t t.abandon

/-- Any number of steps. -/
abbrev Steps : Turn α → Turn α → Prop :=
  Relation.ReflTransGen Step

/-- What every step preserves is preserved by any number of them. -/
theorem Steps.preserve {P : Turn α → Prop} (hstep : ∀ {t t'}, Step t t' → P t → P t')
    {t t' : Turn α} (h : Steps t t') (ht : P t) : P t' := by
  induction h with
  | refl => exact ht
  | tail _ hs ih => exact hstep hs ih

/-! ## A run goes on while time passes -/

/-- A tick at its gate ends no run. -/
theorem isRunning_passGate {t : Turn α} (h : t.exec.isRunning = true) (tick : Tick) :
    (t.passGate tick).1.exec.isRunning = true := by
  obtain ⟨hg, -⟩ | ⟨delay, hg, -⟩ | ⟨t', hg, -, hcore, -⟩ := t.passGate_cases tick
  · rw [hg]
    exact h
  · rw [hg]
    exact h
  · rw [hg]
    exact congrArg Core.isRunning hcore

theorem isRunning_makeTick {t : Turn α} (h : t.exec.isRunning = true) (tick : Tick) :
    (t.makeTick tick).exec.isRunning = true :=
  (congrArg Core.isRunning (t.core_makeTick tick)).trans h

omit [Avatar α] in
/-- A run that begins is in progress. -/
theorem isRunning_begin (t : Turn α) : t.begin.exec.isRunning = true :=
  congrArg Core.isRunning t.core_begin

/-! ## Every order is carried out in steps -/

/-- An advance is made of steps. -/
theorem steps_advanceBy : ∀ (n : Nat) {t : Turn α}, t.exec.isRunning = true →
    Steps t (advanceBy n t)
  | 0, _, _ => .refl
  | n + 1, t, hr => by
    unfold advanceBy
    split
    · exact .single (.finish _ hr (Or.inr rfl))
    · split
      · exact .single (.finish _ hr (Or.inl rfl))
      · next c tick hnext =>
        have hmove : Steps t (t.moveTo c) := .single (.adjust _ ⟨rfl, rfl, rfl, rfl, rfl⟩)
        have hgate : Steps t ((t.moveTo c).passGate tick).1 :=
          hmove.tail (.gate tick hr)
        obtain ⟨hg, -⟩ | ⟨delay, hg, -⟩ | ⟨t', hg, -⟩ := (t.moveTo c).passGate_cases tick
        · rw [hg]
          exact (hmove.tail (.tick tick hr (isOf_of_next? hnext))).trans
            (steps_advanceBy n (isRunning_makeTick (t := t.moveTo c) hr tick))
        · rw [hg] at hgate ⊢
          exact hgate
        · rw [hg] at hgate ⊢
          exact hgate

theorem steps_run (t : Turn α) : Steps t t.run.1 := by
  unfold run
  split
  · exact .single .refuse
  · next hr =>
    exact .head (.begin (Bool.eq_false_iff.mpr hr)) (steps_advanceBy _ t.isRunning_begin)

theorem steps_startTogether (t : Turn α) : Steps t t.startTogether.1 := by
  unfold startTogether
  split
  · exact .single .refuse
  · exact .head .ask (steps_run _)

theorem steps_update (t : Turn α) (dt : Float32) : Steps t (t.update dt) := by
  unfold update
  split
  · exact .refl
  · next hr =>
    have hr : t.exec.isRunning = true := by simpa using hr
    have hnext : Steps t t.nextUpdate := .single (.adjust _ ⟨rfl, rfl, rfl, rfl, rfl⟩)
    dsimp only
    split
    · exact hnext.tail (.finish _ hr (Or.inr rfl))
    · have hage : Steps t (t.nextUpdate.mapExec fun e => { e with age := e.age.map (· + dt) }) :=
        hnext.tail (.adjust _ ⟨rfl, rfl, rfl, rfl, rfl⟩)
      have htime := hage.tail (.wait dt hr)
      have hgoes := isRunning_passTime
        (t := t.nextUpdate.mapExec fun e => { e with age := e.age.map (· + dt) }) dt hr
      split
      · next h =>
        rw [h] at htime hgoes
        exact htime.trans (steps_advanceBy _ hgoes)
      · next h =>
        rw [h] at htime
        exact htime

theorem steps_interrupt (t : Turn α) : Steps t t.interrupt := by
  unfold interrupt
  split
  · next hr => exact .single (.finish _ hr (Or.inr rfl))
  · exact .refl

/-- Every order that does not lend a script is carried out in steps. -/
theorem steps_obey (t : Turn α) {o : Order} (ho : o.lent? = none) : Steps t (t.obey o) := by
  cases o with
  | lend s => cases ho
  | run => exact t.steps_run
  | startTogether => exact t.steps_startTogether
  | issue name args => exact .single (.dispatch name args false)
  | abandon => exact .single .abandon
  | call c =>
    cases c with
    | update dt => exact t.steps_update dt
    | release => exact .single .release
    | peerEnd => exact .single .peerEnd
    | command name args => exact .single (.dispatch name args true)
    | interrupt => exact t.steps_interrupt
    | clearFlag => exact .single (.adjust _ ⟨rfl, rfl, rfl, rfl, rfl⟩)

end Turn

/-! ## Careers -/

namespace Career

variable {α β : Type}

/-- What the watch has seen in the career. -/
def seen (c : Career α) (w : Watch β) : List β :=
  c.past.flatMap fun e => e.deeds.toList.filterMap w.see

variable [Avatar α]

/-- An order adds to what is seen of a career what is seen of its turn. -/
theorem seen_obey (c : Career α) (o : Order) (w : Watch β) :
    (c.obey o).seen w = c.seen w ++ ((c.exec.on c.script).obey o).seen w := by
  simp [seen, obey, Turn.seen]

/-- What every step preserves of the executor, the script and what a watch has seen is preserved by
all orders, if the scripts that are lent by them leave it alone. -/
theorem preserve {w : Watch β} {P : List β → Executor α → Script → Prop}
    (hstep : ∀ {past : List β} {t t' : Turn α}, Turn.Step t t' →
      P (past ++ t.seen w) t.exec t.script → P (past ++ t'.seen w) t'.exec t'.script)
    (orders : List Order) (hlend : ∀ o ∈ orders, ∀ s' ∈ o.lent?, ∀ {past : List β}
      {e : Executor α} {s : Script}, P past e s → P past e s') :
    ∀ {c : Career α}, P (c.seen w) c.exec c.script →
      P ((orders.foldl obey c).seen w) (orders.foldl obey c).exec
        (orders.foldl obey c).script := by
  induction orders with
  | nil => exact fun h => h
  | cons o orders ih =>
    intro c h
    rw [List.forall_mem_cons] at hlend
    refine ih hlend.2 ?_
    rw [seen_obey]
    have hstart : P (c.seen w ++ (c.exec.on c.script).seen w) c.exec c.script := by
      rwa [show (c.exec.on c.script).seen w = [] from rfl, List.append_nil]
    cases ho : o.lent? with
    | none =>
      exact Turn.Steps.preserve (P := fun t => P (c.seen w ++ t.seen w) t.exec t.script) hstep
        (Turn.steps_obey (c.exec.on c.script) ho) hstart
    | some s' =>
      have hlent := hlend.1 s' ho hstart
      cases o <;> cases ho
      exact hlent

end Career

end Tandem
