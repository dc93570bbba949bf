import Tandem.Proofs.Run.Fresh
import Tandem.Proofs.Run.Loan

/-!
# What is shown as running

An executor shows in the script which command is being run : the top-level command that the last
tick belongs to and, if its leaf lies inside a loop, the leaf. It remembers the paths of both, and
moves the running flags from the old paths to the new ones only where they differ. Loops further
inside are not shown.

`Executor.Shows` says that the flags set are those at the paths remembered. Each piece of showing
and hiding keeps that (`Turn.shows_showActive`, `Turn.shows_hideActive`). While no script is lent,
every step of a career leaves shown what the last tick has made, or nothing if there is no run
(`Executor.Lit.step`), so that is what any number of orders leaves (`Career.shown_eq`).
-/

namespace Tandem

/-- Sees that a run starts, and its ticks. -/
def walkWatch : Watch (Option Tick) where
  see
    | .event (.runStarted ..) => some none
    | .tick t _ _ => some (some t)
    | _ => none
  see_logged _ := rfl

theorem alike_walkWatch : walkWatch.TakesCommandsAlike :=
  ⟨fun _ _ _ _ => rfl, fun _ _ => rfl, fun _ _ => rfl, fun _ _ => rfl⟩

/-- The path of the leaf of the tick, if it lies inside a loop. -/
def Tick.inner? (tick : Tick) : Option Path :=
  if 1 < tick.path.length then some tick.path else none

/-- The leaf of a tick is shown by itself if it lies inside a loop. -/
theorem Tick.inner?_eq_some {tick : Tick} {path : Path} :
    tick.inner? = some path ↔ 1 < tick.path.length ∧ tick.path = path := by
  unfold inner?
  split <;> simp [*]

/-- The leaf of a tick lies inside a loop, or it is the top-level command itself. -/
theorem Tick.IsOf.path_cases {tick : Tick} {s : Script} (h : tick.IsOf s) :
    1 < tick.path.length ∨ tick.path = [tick.top] := by
  obtain ⟨b, hleaf, -⟩ := h
  rw [Tick.top]
  rcases hpath : tick.path with _ | ⟨i, _ | ⟨j, path⟩⟩
  · rw [hpath] at hleaf
    cases hleaf
  · exact Or.inr rfl
  · exact Or.inl (by simp)

namespace Executor

variable {α : Type}

/-- The commands shown as running are the top-level one and the one inside a loop, as far as they
are given, and these are what the executor remembers. -/
structure Shows (e : Executor α) (s : Script) (top : Option Nat) (child : Option Path) : Prop where
  shownTop : e.shownTop = top
  shownChild : e.shownChild = child
  inner : ∀ path, child = some path → 1 < path.length
  shown : s.shown = {path | top.map (fun i => [i]) = some path ∨ child = some path}

/-- After those starts and ticks, what is shown as running is what the last tick of the run has
made, if there is a run. Before the first run, the executor remembers nothing. -/
inductive Lit (past : List (Option Tick)) (e : Executor α) (s : Script) : Prop
  | dark : past = [] → e.isRunning = false → e.shownTop = none → e.shownChild = none → Lit past e s
  | runs (last : Option Tick) : past.getLast? = some last → e.isRunning = true →
    e.Shows s (last.map Tick.top) (last.bind Tick.inner?) →
      (∀ tick, last = some tick → tick.IsOf s) → Lit past e s
  | rests : past ≠ [] → e.isRunning = false → e.Shows s none none → Lit past e s

end Executor

/-! ## Showing and hiding -/

namespace Turn

variable {α : Type} {t : Turn α} {top : Option Nat} {child : Option Path}

/-- To hide the leaf leaves the top-level command shown. -/
theorem shows_hideChild (h : t.exec.Shows t.script top child) :
    t.hideChild.exec.Shows t.hideChild.script top none := by
  have hchild := h.shownChild
  unfold hideChild
  rw [hchild]
  cases child with
  | none => exact ⟨h.shownTop, rfl, nofun, h.shown⟩
  | some path =>
    refine ⟨h.shownTop, rfl, nofun, ?_⟩
    have hlt := h.inner path rfl
    show (t.script.setRunning path false).shown = _
    rw [Script.shown_setRunning_false, h.shown]
    ext other
    cases top with
    | none => simp
    | some i =>
      have hne : [i] ≠ path := fun heq => by simp [← heq] at hlt
      simp only [Option.map_some, Option.some.injEq, Set.mem_sdiff, Set.mem_ofPred_eq,
        Set.mem_singleton_iff, reduceCtorEq, or_false]
      constructor
      · rintro ⟨h | h, hother⟩
        · exact h
        · exact absurd h.symm hother
      · rintro rfl
        exact ⟨Or.inl rfl, hne⟩

/-- To hide both leaves nothing shown. -/
theorem shows_hideActive (h : t.exec.Shows t.script top child) :
    t.hideActive.exec.Shows t.hideActive.script none none := by
  have h := shows_hideChild h
  have htop := h.shownTop
  unfold hideActive
  dsimp only
  rw [htop]
  cases top with
  | none => exact ⟨rfl, h.shownChild, nofun, h.shown⟩
  | some i =>
    refine ⟨rfl, h.shownChild, nofun, ?_⟩
    show (t.hideChild.script.setRunning [i] false).shown = _
    rw [Script.shown_setRunning_false, h.shown]
    ext other
    simp [eq_comm]

/-- The top-level command is shown, and perhaps still one inside it. -/
theorem shows_showTop (h : t.exec.Shows t.script top child) {i : Nat}
    (hi : (t.script.get? [i]).isSome) :
    ∃ child', (t.showTop i).exec.Shows (t.showTop i).script (some i) child' := by
  unfold showTop
  split
  · next htop =>
    obtain rfl : top = some i := h.shownTop.symm.trans htop
    exact ⟨child, h⟩
  · have hhide := shows_hideActive h
    have hi : (t.hideActive.script.get? [i]).isSome :=
      (Script.isSome_get?_congr t.showsOnly_hideActive.script [i]).trans hi
    refine ⟨none, rfl, hhide.shownChild, nofun, ?_⟩
    show (t.hideActive.script.setRunning [i] true).shown = _
    rw [Script.shown_setRunning_true hi, hhide.shown]
    ext other
    simp [eq_comm]

/-- To show another leaf moves the flag to it. -/
theorem shows_showChild (h : t.exec.Shows t.script top child) {child' : Option Path}
    (hchild : ∀ path, child' = some path → 1 < path.length ∧ (t.script.get? path).isSome) :
    (t.showChild child').exec.Shows (t.showChild child').script top child' := by
  unfold showChild
  split
  · next heq =>
    obtain rfl : child = child' := h.shownChild.symm.trans heq
    exact h
  · have hhide := shows_hideChild h
    cases child' with
    | none => exact ⟨hhide.shownTop, rfl, nofun, hhide.shown⟩
    | some path =>
      obtain ⟨hlt, hpath⟩ := hchild path rfl
      have hpath : (t.hideChild.script.get? path).isSome :=
        (Script.isSome_get?_congr t.showsOnly_hideChild.script path).trans hpath
      refine ⟨hhide.shownTop, rfl, fun other ho => Option.some.inj ho ▸ hlt, ?_⟩
      show (t.hideChild.script.setRunning path true).shown = _
      rw [Script.shown_setRunning_true hpath, hhide.shown]
      ext other
      simp [or_comm, eq_comm]

/-- What a tick of the script makes is shown, whatever was shown before. -/
theorem shows_showActive (h : t.exec.Shows t.script top child) {tick : Tick}
    (htick : tick.IsOf t.script) :
    (t.showActive tick.path).exec.Shows (t.showActive tick.path).script (some tick.top)
      tick.inner? := by
  obtain ⟨b, hleaf, -⟩ := htick
  have htop : (t.script.get? [tick.path.head?.getD 0]).isSome := by
    cases hpath : tick.path with
    | nil =>
      rw [hpath] at hleaf
      cases hleaf
    | cons i path =>
      rw [hpath] at hleaf
      simp only [Script.get?] at hleaf ⊢
      cases hi : t.script.commands[i]? with
      | none =>
        rw [hi] at hleaf
        cases hleaf
      | some c => simp [hi, Command.get?]
  obtain ⟨child', hshown⟩ := shows_showTop h htop
  refine shows_showChild hshown fun path hinner => ?_
  obtain ⟨hlt, rfl⟩ := Tick.inner?_eq_some.mp hinner
  refine ⟨hlt, ?_⟩
  rw [← Script.isSome_get?_congr (t.showsOnly_showTop _).script.symm, hleaf]
  rfl

/-- Nothing is shown any more once a run is cleaned up. -/
theorem shows_cleanup (h : t.exec.Shows t.script top child) :
    t.cleanup.exec.Shows t.cleanup.script none none := by
  have hhide := shows_hideActive h
  refine ⟨hhide.shownTop, hhide.shownChild, nofun, ?_⟩
  show t.hideActive.script.clearRunning.shown = _
  rw [Script.shown_clearRunning]
  simp

theorem shows_finish (h : t.exec.Shows t.script top child) (outcome : Phase) :
    (t.finish outcome).exec.Shows (t.finish outcome).script none none := by
  have hhide := shows_hideActive h
  have hhide : t.hideActive.exec.Shows t.hideActive.script none none := hhide
  unfold finish
  dsimp only
  split
  · exact shows_cleanup (t := ((((t.hideActive.mapExec (·.stopped outcome)).record
      (endEvent outcome)).send .finish).record .finishSent))
        ⟨hhide.shownTop, hhide.shownChild, nofun, hhide.shown⟩
  · exact ⟨hhide.shownTop, hhide.shownChild, nofun, hhide.shown⟩

/-! ## What shows nothing else -/

/-- From the first turn to the second, nothing has changed of what is shown, nor of whether there is
a run. -/
structure SameDisplay (t t' : Turn α) : Prop where
  isRunning : t'.exec.isRunning = t.exec.isRunning
  shownTop : t'.exec.shownTop = t.exec.shownTop
  shownChild : t'.exec.shownChild = t.exec.shownChild
  script : t'.script = t.script

/-- What is the same display shows the same. -/
theorem SameDisplay.shows {t' : Turn α} (hs : SameDisplay t t')
    (h : t.exec.Shows t.script top child) : t'.exec.Shows t'.script top child :=
  ⟨hs.shownTop.trans h.shownTop, hs.shownChild.trans h.shownChild, h.inner, hs.script ▸ h.shown⟩

/-- To pass over to the next tick shows nothing else. -/
theorem sameDisplay_passOver (t : Turn α) (kind : TickClass) : SameDisplay t (t.passOver kind) := by
  refine ⟨?_, ?_, ?_, t.script_passOver kind⟩ <;> unfold passOver <;> dsimp only <;>
    cases (t.exec.policy.afterTick kind).2 <;> rfl

/-- While time passes nothing else is shown. -/
theorem sameDisplay_passTime (hr : t.exec.isRunning = true) (dt : Float32) :
    SameDisplay t (t.passTime dt).1 := by
  obtain ⟨policy, phase, pending, late, h, -⟩ := t.passTime_eq dt
  refine ⟨(isRunning_passTime dt hr).trans hr.symm, ?_, ?_, t.script_passTime dt⟩
  all_goals
    rw [h]
    cases late <;> rfl

variable [Avatar α]

theorem sameDisplay_perform (t : Turn α) (name : String) (args : List String) (remote : Bool) :
    SameDisplay t (t.perform name args remote).1 := by
  unfold perform
  split
  · exact ⟨rfl, rfl, rfl, rfl⟩
  · split <;> exact ⟨rfl, rfl, rfl, rfl⟩

/-- A command that is carried out shows nothing else. -/
theorem sameDisplay_dispatch (t : Turn α) (name : String) (args : List String) (remote : Bool) :
    SameDisplay t (t.dispatch name args remote).1 := by
  obtain ⟨hr, htop, hchild, hscript⟩ := t.sameDisplay_perform name args remote
  unfold dispatch
  split
  · exact ⟨rfl, rfl, rfl, rfl⟩
  · cases remote <;> exact ⟨hr, htop, hchild, hscript⟩

/-- A tick at its gate is not shown yet. -/
theorem sameDisplay_passGate (hr : t.exec.isRunning = true) (tick : Tick) :
    SameDisplay t (t.passGate tick).1 := by
  refine ⟨(isRunning_passGate hr tick).trans hr.symm, ?_, ?_, t.script_passGate tick⟩
  all_goals
    unfold passGate
    split
    · rfl
    · generalize t.exec.policy.beforeTick (t.tickClass tick) t.exec.age = answer
      obtain ⟨policy, gate, sending⟩ := answer
      cases gate with
      | block => cases sending <;> rfl
      | proceed delay =>
        dsimp only
        split <;> cases sending <;> rfl

/-- A tick is shown before it is carried out. -/
theorem sameDisplay_carryOut (t : Turn α) (tick : Tick) (kind : TickClass) :
    SameDisplay (t.showActive tick.path) (t.carryOut tick kind) := by
  unfold carryOut
  dsimp only
  split
  · exact ⟨rfl, rfl, rfl, rfl⟩
  · have h := sameDisplay_dispatch (((t.showActive tick.path).noteTick tick kind).record
      (.tick tick.top tick.name tick.wait)) tick.name tick.args false
    exact ⟨h.isRunning, h.shownTop, h.shownChild, h.script⟩

/-- The tick that is made is shown. -/
theorem shows_makeTick (h : t.exec.Shows t.script top child) {tick : Tick}
    (htick : tick.IsOf t.script) :
    (t.makeTick tick).exec.Shows (t.makeTick tick).script (some tick.top) tick.inner? := by
  have hstart : (t.mapExec fun e => { e with pending := .nothing }).exec.Shows
      (t.mapExec fun e => { e with pending := .nothing }).script top child :=
    ⟨h.shownTop, h.shownChild, h.inner, h.shown⟩
  have hcarry := (sameDisplay_carryOut _ tick (t.tickClass tick)).shows
    (shows_showActive hstart htick)
  have hover := (sameDisplay_passOver _ (t.tickClass tick)).shows hcarry
  exact ⟨hover.shownTop, hover.shownChild, hover.inner, hover.shown⟩

end Turn

/-! ## Every step shows what it makes -/

namespace Executor

variable {α : Type} {past : List (Option Tick)}

/-- What changes nothing of what is shown leaves it right. -/
theorem Lit.of_same {t t' : Turn α} (h : Lit (past ++ t.seen walkWatch) t.exec t.script)
    (hs : t.SameDisplay t') (hseen : t'.seen walkWatch = t.seen walkWatch) :
    Lit (past ++ t'.seen walkWatch) t'.exec t'.script := by
  rw [hseen]
  cases h with
  | dark hpast hr htop hchild =>
    exact .dark hpast (hs.isRunning.trans hr) (hs.shownTop.trans htop) (hs.shownChild.trans hchild)
  | runs last hlast hr hshows hof =>
    exact .runs last hlast (hs.isRunning.trans hr) (hs.shows hshows) fun tick ht =>
      hs.script ▸ hof tick ht
  | rests hpast hr hshows => exact .rests hpast (hs.isRunning.trans hr) (hs.shows hshows)

/-- Whatever was shown, nothing is once the run is cleaned up. -/
theorem Lit.cleanup {t : Turn α} (h : Lit (past ++ t.seen walkWatch) t.exec t.script) :
    Lit (past ++ t.cleanup.seen walkWatch) t.cleanup.exec t.cleanup.script := by
  have hidle : t.cleanup.exec.isRunning = false := congrArg Core.isRunning t.core_cleanup
  rw [t.seen_cleanup, show walkWatch.ofCleanup = [] from rfl, List.append_nil]
  cases h with
  | dark hpast hr htop hchild =>
    exact .dark hpast hidle t.shown_hideActive.1 t.shown_hideActive.2
  | runs last hlast hr hshows hof =>
    refine .rests (fun hnil => ?_) hidle (Turn.shows_cleanup hshows)
    rw [hnil] at hlast
    cases hlast
  | rests hpast hr hshows => exact .rests hpast hidle (Turn.shows_cleanup hshows)

/-- A run begins with nothing shown. -/
theorem Lit.begin {t : Turn α} (h : Lit (past ++ t.seen walkWatch) t.exec t.script)
    (hr : t.exec.isRunning = false) :
    Lit (past ++ t.begin.seen walkWatch) t.begin.exec t.begin.script := by
  have hhidden : t.exec.shownTop = none ∧ t.exec.shownChild = none := by
    cases h with
    | dark _ _ htop hchild => exact ⟨htop, hchild⟩
    | runs last hlast hr' => cases hr.symm.trans hr'
    | rests _ _ hshows => exact ⟨hshows.shownTop, hshows.shownChild⟩
  obtain ⟨htop, hchild⟩ := Turn.shown_begin hhidden.1 hhidden.2
  have hseen : t.begin.seen walkWatch = t.seen walkWatch ++ [none] := by
    rw [t.seen_begin]
    cases t.exec.cleanupDue <;> rfl
  refine .runs none ?_ t.isRunning_begin ⟨htop, hchild, nofun, ?_⟩ nofun
  · rw [hseen, ← List.append_assoc, List.getLast?_concat]
  · rw [Turn.script_begin_eq, Script.shown_clearRunning]
    simp

/-- While there is a run, the last run has started or made a tick last. -/
theorem Lit.shows_of_running {e : Executor α} {s : Script} (h : Lit past e s)
    (hr : e.isRunning = true) : past ≠ [] ∧ ∃ top child, e.Shows s top child := by
  cases h with
  | dark _ hr' => cases hr.symm.trans hr'
  | runs last hlast _ hshows =>
    refine ⟨fun hnil => ?_, _, _, hshows⟩
    rw [hnil] at hlast
    cases hlast
  | rests _ hr' => cases hr.symm.trans hr'

/-- Once a run has ended, nothing is shown. -/
theorem Lit.finish {t : Turn α} (h : Lit (past ++ t.seen walkWatch) t.exec t.script)
    (hr : t.exec.isRunning = true) {outcome : Phase}
    (ho : outcome = .completed ∨ outcome = .interrupted) :
    Lit (past ++ (t.finish outcome).seen walkWatch) (t.finish outcome).exec
      (t.finish outcome).script := by
  obtain ⟨hpast, top, child, hshows⟩ := h.shows_of_running hr
  have hseen : (t.finish outcome).seen walkWatch = t.seen walkWatch := by
    rw [t.seen_finish]
    obtain rfl | rfl := ho <;> cases t.exec.policy.peerFinished <;> exact List.append_nil _
  rw [hseen]
  refine .rests hpast ?_ (Turn.shows_finish hshows outcome)
  exact (congrArg Core.isRunning (t.core_finish outcome)).trans (Core.rests_ended _ ho).isRunning

/-- When the other device has finished, a run that has ended is cleaned up. -/
theorem Lit.afterPeerEnd {t : Turn α} (h : Lit (past ++ t.seen walkWatch) t.exec t.script) :
    Lit (past ++ t.afterPeerEnd.seen walkWatch) t.afterPeerEnd.exec t.afterPeerEnd.script := by
  have hheard : Lit (past ++ ((t.record .peerFinished).setPolicy
      t.exec.policy.afterPeerEnd).seen walkWatch)
      ((t.record .peerFinished).setPolicy t.exec.policy.afterPeerEnd).exec t.script :=
    h.of_same ⟨rfl, rfl, rfl, rfl⟩
      ((t.seen_record walkWatch .peerFinished).trans (List.append_nil _))
  unfold Turn.afterPeerEnd
  dsimp only
  split
  · exact hheard.cleanup
  · exact hheard

variable [Avatar α]

/-- At its gate a tick shows nothing yet. -/
theorem Lit.passGate {t : Turn α} (h : Lit (past ++ t.seen walkWatch) t.exec t.script)
    (hr : t.exec.isRunning = true) (tick : Tick) :
    Lit (past ++ (t.passGate tick).1.seen walkWatch) (t.passGate tick).1.exec
      (t.passGate tick).1.script := by
  refine h.of_same (Turn.sameDisplay_passGate hr tick) ?_
  obtain ⟨hg, -⟩ | ⟨delay, hg, -⟩ | ⟨t', hg, -, -, -, hseen⟩ := t.passGate_cases tick
  · rw [hg]
  · rw [hg]
    rfl
  · rw [hg]
    refine (hseen walkWatch).trans ?_
    cases t.exec.policy.owesRelease <;> exact List.append_nil _

/-- A tick that is made is the last one, and shown. -/
theorem Lit.makeTick {t : Turn α} (h : Lit (past ++ t.seen walkWatch) t.exec t.script)
    (hr : t.exec.isRunning = true) {tick : Tick} (hof : tick.IsOf t.script) :
    Lit (past ++ (t.makeTick tick).seen walkWatch) (t.makeTick tick).exec
      (t.makeTick tick).script := by
  obtain ⟨-, top, child, hshows⟩ := h.shows_of_running hr
  have hseen : (t.makeTick tick).seen walkWatch = t.seen walkWatch ++ [some tick] := by
    rw [t.seen_makeTick walkWatch tick alike_walkWatch, Watch.ofTick]
    cases tick.wait <;> cases t.exec.policy.releasesAfter (t.tickClass tick) <;> rfl
  refine .runs (some tick) ?_ (Turn.isRunning_makeTick hr tick) (Turn.shows_makeTick hshows hof) ?_
  · rw [hseen, ← List.append_assoc, List.getLast?_concat]
  · rintro _ ⟨⟩
    exact Script.isOf_congr (t.script_makeTick tick).symm hof

/-- Every step leaves shown what was made last. -/
theorem Lit.step {t t' : Turn α} (hstep : Turn.Step t t')
    (h : Lit (past ++ t.seen walkWatch) t.exec t.script) :
    Lit (past ++ t'.seen walkWatch) t'.exec t'.script := by
  cases hstep with
  | adjust f hf =>
    refine h.of_same ⟨?_, hf.shownTop, hf.shownChild, rfl⟩ rfl
    show (f t.exec).isRunning = _
    rw [isRunning, isRunning, hf.phase]
  | refuse =>
    refine h.of_same ⟨rfl, rfl, rfl, rfl⟩ ?_
    exact (t.seen_record walkWatch .runRejected).trans (List.append_nil _)
  | ask =>
    refine h.of_same ⟨rfl, rfl, rfl, rfl⟩ ?_
    exact (t.seen_send walkWatch .run).trans (List.append_nil _)
  | dispatch name args remote =>
    refine h.of_same (t.sameDisplay_dispatch name args remote) ?_
    exact (t.seen_dispatch walkWatch name args remote alike_walkWatch).trans (List.append_nil _)
  | begin hr => exact h.begin hr
  | gate tick hr => exact h.passGate hr tick
  | tick tick hr hof => exact h.makeTick hr hof
  | wait dt hr =>
    exact h.of_same (Turn.sameDisplay_passTime hr dt) (t.seen_passTime dt walkWatch fun _ => rfl)
  | finish outcome hr ho => exact h.finish hr ho
  | release =>
    refine h.of_same ⟨rfl, rfl, rfl, rfl⟩ ?_
    exact (t.seen_record walkWatch .unlockReceived).trans (List.append_nil _)
  | peerEnd => exact h.afterPeerEnd
  | abandon =>
    refine Lit.cleanup (h.of_same ⟨rfl, rfl, rfl, rfl⟩ ?_)
    exact (Turn.seen_record _ walkWatch .reset).trans (List.append_nil _)

end Executor

/-! ## Careers -/

namespace Career

variable {α : Type}

/-- A run has started. -/
def HasStarted (c : Career α) : Prop :=
  none ∈ c.seen walkWatch

instance (c : Career α) : Decidable c.HasStarted :=
  inferInstanceAs (Decidable (_ ∈ _))

/-- The last tick of the last run, if it has made one. -/
def lastTick (c : Career α) : Option Tick :=
  (c.seen walkWatch).getLast?.join

variable [Avatar α]

/-- In every career without another script, what is shown is right. -/
theorem lit (role : Role) (mode : SyncMode) (timings : Timings) (wait : String) (own rival : α)
    (s : Script) {orders : List Order} (hlend : ∀ o ∈ orders, o.lent? = none) :
    let c := (Executor.new role mode timings wait own rival).career s orders
    Executor.Lit (c.seen walkWatch) c.exec c.script := by
  intro c
  refine preserve Executor.Lit.step orders (fun o ho s' hs' => ?_) (.dark rfl rfl rfl rfl)
  rw [hlend o ho] at hs'
  cases hs'

/-- From the first run on, and as long as no other script is lent, the running flags that are set
are those of the last tick that the run in progress has made : that of the top-level command, and
that of the leaf, which is another one if the leaf lies inside a loop. If the run has made no tick,
or if there is no run, no flag is set. It does not matter which flags were set in the script at
first. -/
theorem shown_eq (role : Role) (mode : SyncMode) (timings : Timings) (wait : String) (own rival : α)
    (s : Script) (orders : List Order) (hlend : ∀ o ∈ orders, o.lent? = none)
    (hstarted : ((Executor.new role mode timings wait own rival).career s orders).HasStarted) :
    let c := (Executor.new role mode timings wait own rival).career s orders
    let last := if c.exec.isRunning then c.lastTick else none
    c.script.shown = last.elim ∅ (fun tick => {[tick.top], tick.path}) ∧
      ∀ tick, last = some tick → tick.IsOf c.script := by
  intro c last
  have h : Executor.Lit (c.seen walkWatch) c.exec c.script :=
    lit role mode timings wait own rival s hlend
  cases h with
  | dark hpast => exact absurd hpast (List.ne_nil_of_mem hstarted)
  | rests hpast hr hshows =>
    rw [show last = none from if_neg (Bool.eq_false_iff.mp hr), hshows.shown]
    exact ⟨by simp, nofun⟩
  | runs tick? hlast hr hshows hof =>
    have heq : last = tick? := by
      rw [show last = c.lastTick from if_pos hr, lastTick, hlast, Option.join_some]
    rw [heq, hshows.shown]
    refine ⟨?_, hof⟩
    cases tick? with
    | none => simp
    | some tick =>
      have hpath : 1 < tick.path.length ∨ tick.path = [tick.top] := (hof tick rfl).path_cases
      ext path
      simp only [Option.map_some, Option.bind_some, Option.some.injEq, Tick.inner?_eq_some,
        Set.mem_ofPred_eq, Option.elim_some, Set.mem_insert_iff, Set.mem_singleton_iff]
      constructor
      · rintro (rfl | ⟨-, rfl⟩)
        · exact Or.inl rfl
        · exact Or.inr rfl
      · rintro (rfl | rfl)
        · exact Or.inl rfl
        · exact hpath.elim (fun hlt => Or.inr ⟨hlt, rfl⟩) fun heq => Or.inl heq.symm

/-- The spiral as it was saved while all its commands were shown as running. -/
def glaringSpiral : Script :=
  ⟨Command.mapHeadsList (fun b => { b with flags := { b.flags with running := true } })
    Turn.spiral.commands⟩

/-- In the second tick of a run of the spiral, the outer loop and the leaf of the inner one are
shown, and the inner loop is not. -/
theorem shown_in_spiral :
    let orders : List Order := [.run, .call (.update 0.5)]
    let c := (Executor.new .master .async .standard "Continue_Sec"
      (GridAvatar.new .standard 6 false [] true) (GridAvatar.new .standard 6 true [] false)).career
      glaringSpiral orders
    ((∀ o ∈ orders, o.lent? = none) ∧ c.HasStarted) ∧
      c.script.shown = {[0], [0, 3, 0]} ∧
      Tick.IsOf ⟨[0, 3, 0], "MOVE", ["SOUTH"], false⟩ c.script := by
  intro orders c
  have hlend : ∀ o ∈ orders, o.lent? = none := by simp [orders, Order.lent?]
  have hstarted : c.HasStarted := by decide +kernel
  have hlast : (if c.exec.isRunning then c.lastTick else none) =
      some ⟨[0, 3, 0], "MOVE", ["SOUTH"], false⟩ := by decide +kernel
  obtain ⟨hshown, hof⟩ := shown_eq .master .async .standard "Continue_Sec"
    (GridAvatar.new .standard 6 false [] true) (GridAvatar.new .standard 6 true [] false)
    glaringSpiral orders hlend hstarted
  refine ⟨⟨hlend, hstarted⟩, ?_, hof _ hlast⟩
  exact hshown.trans (by rw [hlast]; rfl)

end Career

end Tandem
