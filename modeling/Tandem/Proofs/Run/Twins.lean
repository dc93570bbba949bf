import Tandem.Proofs.Run.Kin

/-!
# Runs of twin executors

Two executors are twins if they differ in their logs at most. What an executor does never depends on
its log, so twins that are given the same orders over scripts that run alike stay twins, and do the
same : they make the same ticks, hand their avatars the same commands, send the same messages and
show the same (`Turn.Twins.obey`). Only the lines that are written out are not the same, because the
log decides how many of them there are.

One of the twins may have done something before (`Turn.Twins`).
-/

namespace Tandem

/-- Sees all deeds but the lines that are written out. -/
def deedWatch : Watch Deed where
  see
    | .effect (.logged _) => none
    | d => some d
  see_logged _ := rfl

namespace Turn

variable {α : Type}

/-- The turns are those of executors that differ in their logs at most, over scripts that look alike
to a run. The first one has done what the second one has, and something more before that. -/
structure Twins (before : List Deed) (t t' : Turn α) : Prop where
  exec : t.exec = { t'.exec with log := t.exec.log }
  script : t.script.Alike Flags.gist t'.script
  deeds : t.seen deedWatch = before ++ t'.seen deedWatch

/-- A watch sees what it sees among all deeds. -/
theorem seen_deedWatch {β : Type} (t : Turn α) (w : Watch β) :
    (t.seen deedWatch).filterMap w.see = t.seen w := by
  have hsee : ∀ d : Deed, w.see d = (deedWatch.see d).bind w.see := by
    intro d
    cases d with
    | tick | event => rfl
    | effect e =>
      cases e with
      | logged line => exact w.see_logged line
      | performed | sent | stepShown | runShown => rfl
  exact (Watch.filterMap_see hsee _).symm

namespace Twins

variable {before : List Deed} {t t' : Turn α}

/-- Of twins the same is seen, behind what came before. -/
theorem seen (h : Twins before t t') {β : Type} (w : Watch β) :
    t.seen w = before.filterMap w.see ++ t'.seen w := by
  rw [← t.seen_deedWatch, h.deeds, List.filterMap_append, t'.seen_deedWatch]

/-! ## Twins do the same -/

variable [Avatar α]

/-- Twins have the same rivals and scripts that look alike, and everything that they do is looked
at. -/
def ship (α : Type) [Avatar α] : Kinship α Deed where
  scripts := Script.Alike Flags.gist
  rivals := Eq
  watch := deedWatch
  refl := .refl Flags.gist
  disabled h := h.disabled
  setRunning path value h := h.setRunning path value
  clearRunning h := h.disabled.clearRunning
  perform _ _ h := by rw [h]
  stopsRun _ _ h := by rw [h]
  handed _ _ h := by rw [h]
  told _ _ h _ _ _ := by rw [h]

/-- Twins are kin with equal rivals. -/
theorem kin (h : Twins before t t') : Kin (ship α) before t t' := by
  have hrival : t.exec.rival = t'.exec.rival := by rw [h.exec]
  refine ⟨?_, hrival, h.script, h.deeds⟩
  rw [hrival]
  exact h.exec

/-- Kin with equal rivals are twins. -/
theorem of_kin (h : Kin (ship α) before t t') : Twins before t t' := by
  have hrival : t.exec.rival = t'.exec.rival := h.rivals
  refine ⟨?_, h.script, h.deeds⟩
  have hexec := h.exec
  rw [hrival] at hexec
  exact hexec

theorem advance (h : Twins before t t') : Twins before t.advance t'.advance :=
  of_kin h.kin.advance

/-- Twins that are asked for a run stay twins. -/
theorem run (h : Twins before t t') : Twins before t.run.1 t'.run.1 :=
  of_kin h.kin.run

theorem obey (h : Twins before t t') (o : Order) : Twins before (t.obey o) (t'.obey o) :=
  of_kin (h.kin.obey o fun _ _ _ => congrArg Avatar.isDead h.kin.rivals)

theorem serve (h : Twins before t t') (call : Call) :
    Twins before (t.serve call) (t'.serve call) :=
  h.obey (.call call)

/-- Twins that are given the same orders stay twins. -/
theorem foldl_obey (orders : List Order) : ∀ {t t' : Turn α}, Twins before t t' →
    Twins before (orders.foldl Turn.obey t) (orders.foldl Turn.obey t') := by
  induction orders with
  | nil => exact fun h => h
  | cons o orders ih => exact fun h => ih (h.obey o)

end Twins

end Turn

end Tandem
