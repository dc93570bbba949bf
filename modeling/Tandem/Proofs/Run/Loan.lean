import Tandem.Proofs.Run.Step
import Mathlib.Data.List.Induction

/-!
# The script that an executor is lent

An executor writes into the script of its host. It does so at paths that it has kept from earlier
orders, and the host may have lent another script since, in which something else stands there or
nothing at all. Still it writes running flags only : with all running flags cleared, the script is
the one that was lent, whatever state the executor is in and whatever it is ordered to do
(`Turn.keeps_loan`).
-/

namespace Tandem

namespace Turn

variable {α : Type}

theorem script_afterPeerEnd (t : Turn α) :
    t.afterPeerEnd.script.clearRunning = t.script.clearRunning := by
  unfold afterPeerEnd
  dsimp only
  split
  · rw [script_cleanup]
    rfl
  · rfl

variable [Avatar α]

theorem script_passGate (t : Turn α) (tick : Tick) : (t.passGate tick).1.script = t.script := by
  obtain ⟨hg, -⟩ | ⟨delay, hg, -⟩ | ⟨t', hg, -, -, hscript, -⟩ := t.passGate_cases tick
  · rw [hg]
  · rw [hg]
    rfl
  · rw [hg]
    exact hscript

/-- No step changes anything but running flags. -/
theorem Step.script {t t' : Turn α} (h : Step t t') :
    t'.script.clearRunning = t.script.clearRunning := by
  cases h with
  | adjust f hf => rfl
  | refuse => rfl
  | ask => rfl
  | dispatch name args remote => rw [script_dispatch]
  | begin hr => exact t.script_begin
  | gate tick hr => rw [script_passGate]
  | tick tick hr hof => exact t.script_makeTick tick
  | wait dt hr => rw [script_passTime]
  | finish outcome hr ho => exact t.script_finish outcome
  | release => rfl
  | peerEnd => exact t.script_afterPeerEnd
  | abandon => exact script_cleanup _

/-- Steps change the script in its running flags at most. -/
theorem Steps.script {t t' : Turn α} (h : Steps t t') :
    t'.script.clearRunning = t.script.clearRunning :=
  h.preserve (P := fun u => u.script.clearRunning = t.script.clearRunning)
    (fun hs hu => hs.script.trans hu) rfl

/-- After any orders, the script is the one that was lent last, or that there was at first, but for
running flags. -/
theorem script_foldl_obey (t : Turn α) (orders : List Order) :
    (orders.foldl Turn.obey t).script.clearRunning =
      ((orders.filterMap Order.lent?).getLastD t.script).clearRunning := by
  induction orders using List.reverseRecOn with
  | nil => rfl
  | append_singleton orders o ih =>
    rw [List.foldl_append, List.filterMap_append]
    cases ho : o.lent? with
    | some s =>
      rw [List.filterMap_cons_some ho, List.filterMap_nil, List.getLastD_concat]
      cases o <;> cases ho
      rfl
    | none =>
      rw [List.filterMap_cons_none ho, List.filterMap_nil, List.append_nil]
      exact (steps_obey _ ho).script.trans ih

/-- Whatever state an executor is in, and whatever it is ordered to do, it leaves the script that it
is lent as it is, but for running flags. Every command is at the path where it was, with its name,
its arguments, its count, its children and its other flags. -/
theorem keeps_loan (t : Turn α) (orders : List Order) :
    let lent := (orders.filterMap Order.lent?).getLastD t.script
    let script := (orders.foldl Turn.obey t).script
    script.clearRunning = lent.clearRunning ∧ script.length = lent.length ∧
      ∀ path, Option.Rel Command.Matches (script.get? path) (lent.get? path) := by
  intro lent script
  have hsame : script.clearRunning = lent.clearRunning := t.script_foldl_obey orders
  refine ⟨hsame, ?_, Script.matches_of_clearRunning hsame⟩
  have hlength : ∀ s : Script, s.clearRunning.length = s.length :=
    fun s => Command.length_mapHeadsList _ s.commands
  rw [← hlength script, hsame, hlength]

/-- A run of the spiral goes on in a script that is not its own, and leaves it as it is. -/
example :
    let t := [.run, .lend ⟨[.ofName "MOVE" ["NORTH"]]⟩, .call (.update 0.5), .abandon].foldl
      Turn.obey (freeDevice.on spiral)
    t.script = ⟨[.ofName "MOVE" ["NORTH"]]⟩ := by
  decide +kernel

end Turn

end Tandem
