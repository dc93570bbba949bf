import Tandem.Proofs.Run.Course
import Tandem.Simulation

/-!
# A run makes the ticks of its script

Whatever happens to a run while its script is left alone, the ticks it has made are always a
prefix of the expansion of the script, and all of it once the run is completed
(`Turn.ticks_after_run`). The events recorded and the commands carried out are those of the
ticks.

The invariant is `Side.Walked` : while the run is going on, the ticks made and those still ahead
are the expansion. One act keeps it (`Side.Walked.act`), so a course does
(`Side.Walked.course`), and so does whatever else happens to a run (`Turn.Walked.serve`).
-/

namespace Tandem

/-! ## What is seen of a run -/

/-- Sees the ticks. -/
def tickWatch : Watch Tick where
  see
    | .tick t _ _ => some t
    | _ => none
  see_logged _ := rfl

/-- Sees the ticks as they are recorded: the top-level index, the command, and whether it waits. -/
def tickEventWatch : Watch (Nat × String × Bool) where
  see
    | .event (.tick index command wait) => some (index, command, wait)
    | _ => none
  see_logged _ := rfl

/-- Sees the commands that the device carries out itself, whatever comes of them. -/
def commandWatch : Watch String where
  see
    | .event (.dispatched command false) => some command
    | .event (.deadAvatar command false) => some command
    | .event (.unrecognized command false) => some command
    | _ => none
  see_logged _ := rfl

/-- Sees the completion of the script. -/
def completionWatch : Watch Unit where
  see
    | .event .completed => some ()
    | _ => none
  see_logged _ := rfl

/-- The tick as it is recorded. -/
def Tick.recorded (t : Tick) : Nat × String × Bool :=
  (t.top, t.name, t.wait)

/-- The command that is carried out in the tick, if it is not one of waiting. -/
def Tick.command? (t : Tick) : Option String :=
  if t.wait then none else some (Turn.commandText t.name t.args)

/-- The tick that the act makes, if it makes one. -/
def Act.tick? : Act → Option Tick
  | tick t _ _ => some t
  | _ => none

/-- What the act completes. -/
def Act.completion : Act → List Unit
  | finish .completed => [()]
  | _ => []

/-- The watch sees something of each tick and nothing else. -/
structure Watch.Follows {β : Type} (w : Watch β) (g : Tick → List β) : Prop where
  alike : w.TakesCommandsAlike
  ofAct : ∀ σ a, w.ofAct σ a = a.tick?.toList.flatMap g
  ofCommand : ∀ name args, w.ofCommand name args true = []
  ofCleanup : w.ofCleanup = []
  ofStart : ∀ mode role n, w.ofStart mode role n = []
  unlockReceived : w.ofEvent .unlockReceived = []
  peerFinished : w.ofEvent .peerFinished = []

/-- The deed belongs to a tick. -/
def Deed.concernsTick : Deed → Bool
  | .tick .. | .event (.tick ..) => true
  | .event (.dispatched _ remote) | .event (.deadAvatar _ remote)
  | .event (.unrecognized _ remote) => !remote
  | _ => false

/-- A watch that sees ticks and nothing else follows the ticks. -/
theorem Watch.Follows.of_quiet {β : Type} {w : Watch β} {g : Tick → List β}
    (alike : w.TakesCommandsAlike) (quiet : ∀ d, d.concernsTick = false → w.see d = none)
    (tick : ∀ t kind age, w.ofTick t kind age = g t) : w.Follows g := by
  have effect : ∀ e, w.ofEffect e = [] := fun e => by rw [ofEffect, quiet _ rfl]; rfl
  have event : ∀ e, (Deed.event e).concernsTick = false → w.ofEvent e = [] :=
    fun e h => by rw [ofEvent, quiet _ h]; rfl
  have release : ∀ sending, w.ofRelease sending = [] := by
    intro sending
    rw [ofRelease, effect, event .unlockSent rfl]
    cases sending <;> rfl
  have cleanup : w.ofCleanup = [] := by rw [Watch.ofCleanup, effect, event .cleanup rfl]; rfl
  refine ⟨alike, fun σ a => ?_, fun name args => event _ rfl, cleanup, fun mode role n => ?_,
    event _ rfl, event _ rfl⟩
  · cases a with
    | tick t kind age => simp [Watch.ofAct, tick, release, effect, Act.tick?]
    | hold t => simp [Watch.ofAct, release, event (.waitingForPeer t.top) rfl, Act.tick?]
    | resume => rfl
    | timeOut held => exact event _ rfl
    | finish outcome =>
      have hend : w.ofEvent (Turn.endEvent outcome) = [] := by
        unfold Turn.endEvent
        split <;> exact event _ rfl
      cases h : σ.heard <;>
        simp [Watch.ofAct, ofEnd, cleanup, hend, effect, event .finishSent rfl,
          event .cleanupDeferred rfl, Act.tick?, h]
  · rw [Watch.ofStart, effect, event (.runStarted mode role n) rfl]
    rfl

theorem follows_tickWatch : tickWatch.Follows fun t => [t] := by
  refine .of_quiet ⟨fun _ _ _ _ => rfl, fun _ _ => rfl, fun _ _ => rfl, fun _ _ => rfl⟩
    (fun d h => ?_) fun t _ _ => ?_
  · cases d <;> first | rfl | cases h
  · rw [Watch.ofTick]
    cases t.wait <;> rfl

theorem follows_tickEventWatch : tickEventWatch.Follows fun t => [t.recorded] := by
  refine .of_quiet ⟨fun _ _ _ _ => rfl, fun _ _ => rfl, fun _ _ => rfl, fun _ _ => rfl⟩
    (fun d h => ?_) fun t _ _ => ?_
  · rcases d with _ | e | _
    · cases h
    · cases e <;> first | rfl | cases h
    · rfl
  · rw [Watch.ofTick, Tick.recorded]
    cases t.wait <;> rfl

theorem follows_commandWatch : commandWatch.Follows fun t => t.command?.toList := by
  refine .of_quiet ⟨fun _ _ _ _ => rfl, fun _ _ => rfl, fun _ remote => ?_, fun _ remote => ?_⟩
    (fun d h => ?_) fun t _ _ => ?_
  · cases remote <;> rfl
  · cases remote <;> rfl
  · unfold commandWatch
    dsimp only
    split
    all_goals first | rfl | cases h
  · rw [Watch.ofTick, Tick.command?]
    cases t.wait <;> rfl

/-- The ticks that the acts make. -/
def ticksOf (acts : List (Side × Act)) : List Tick :=
  acts.flatMap fun a => a.2.tick?.toList

/-- Of a course it sees what it sees of its ticks. -/
theorem Watch.Follows.ofCourse {β : Type} {w : Watch β} {g : Tick → List β} (h : w.Follows g)
    (acts : List (Side × Act)) : w.ofCourse acts = (ticksOf acts).flatMap g := by
  rw [Watch.ofCourse, ticksOf, List.flatMap_assoc]
  simp only [h.ofAct]

theorem alike_completionWatch : completionWatch.TakesCommandsAlike :=
  ⟨fun _ _ _ _ => rfl, fun _ _ => rfl, fun _ _ => rfl, fun _ _ => rfl⟩

/-- Of an act only a completion is seen. -/
theorem ofAct_completionWatch (σ : Side) (a : Act) :
    completionWatch.ofAct σ a = a.completion := by
  have release : ∀ sending, completionWatch.ofRelease sending = [] := fun sending => by
    cases sending <;> rfl
  cases a with
  | tick t kind age =>
    rw [Watch.ofAct, release, Watch.ofTick]
    cases t.wait <;> rfl
  | hold t =>
    rw [Watch.ofAct, release]
    rfl
  | resume => rfl
  | timeOut held => rfl
  | finish outcome =>
    rw [Watch.ofAct, Watch.ofEnd]
    cases outcome <;> cases σ.heard <;> rfl

/-! ## The walk of a side -/

namespace Side

/-- The side has made the ticks since its run began, and has come to the completions. -/
structure Walked (made : List Tick) (completions : List Unit) (σ : Side) : Prop where
  ahead : σ.isRunning = true → σ.whole = made ++ σ.left
  behind : made <+: σ.whole
  unfinished : σ.isRunning = true → completions = []
  finished : completions ≠ [] → made = σ.whole

namespace Walked

variable {made : List Tick} {completions : List Unit} {σ : Side}

/-- A side that has not moved in its script has walked as far as before. -/
theorem of_same {σ' : Side} (h : σ.Walked made completions) (hwhole : σ'.whole = σ.whole)
    (hrun : σ'.isRunning = true → σ.isRunning = true ∧ σ'.left = σ.left) :
    σ'.Walked made completions where
  ahead hr := by rw [hwhole, (hrun hr).2, h.ahead (hrun hr).1]
  behind := hwhole ▸ h.behind
  unfinished hr := h.unfinished (hrun hr).1
  finished hc := hwhole ▸ h.finished hc

/-- An act that is no tick and completes nothing leaves the walk where it is. -/
theorem of_still {a : Act} (h : σ.Walked made completions) (ht : a.tick? = none)
    (hc : a.completion = []) (hwhole : (σ.after a).whole = σ.whole)
    (hrun : (σ.after a).isRunning = true → σ.isRunning = true ∧ (σ.after a).left = σ.left) :
    (σ.after a).Walked (made ++ a.tick?.toList) (completions ++ a.completion) := by
  rw [ht, hc, Option.toList_none, List.append_nil, List.append_nil]
  exact h.of_same hwhole hrun

/-- An act takes a walked side on by the tick that it makes. -/
theorem act {strict : Prop} {a : Act} (h : σ.Walked made completions) (ha : σ.Allows strict a) :
    (σ.after a).Walked (made ++ a.tick?.toList) (completions ++ a.completion) := by
  cases a with
  | tick t kind age =>
    obtain ⟨hp, hnext, -⟩ := ha
    have hr : σ.isRunning = true := isRunning_of_running hp
    obtain ⟨rest, hleft⟩ := List.head?_eq_some_iff.mp hnext
    have hwhole : σ.whole = (made ++ [t]) ++ rest := by
      rw [h.ahead hr, hleft, List.append_assoc]
      rfl
    refine ⟨fun _ => ?_, ⟨rest, hwhole.symm⟩, fun _ => ?_, fun hc => ?_⟩
    · show σ.whole = (made ++ [t]) ++ σ.left.tail
      rw [hleft]
      exact hwhole
    · rw [h.unfinished hr]
      rfl
    · rw [h.unfinished hr] at hc
      exact absurd rfl hc
  | hold t => exact h.of_still rfl rfl rfl fun _ => ⟨isRunning_of_running ha.1, rfl⟩
  | resume => exact h.of_still rfl rfl rfl fun _ => ⟨isRunning_of_waiting ha.1, rfl⟩
  | timeOut held => exact h.of_still rfl rfl rfl fun _ => ⟨isRunning_of_waiting ha.1, rfl⟩
  | finish outcome =>
    obtain ⟨hr, ho⟩ := ha
    have hend : (σ.after (.finish outcome)).isRunning ≠ true := by
      rw [show (σ.after (.finish outcome)).isRunning = false from
        isRunning_ended (ho.imp And.left id)]
      nofun
    have hwhole := (σ.like_after (.finish outcome)).whole
    obtain ⟨rfl, hleft⟩ | rfl := ho
    · have hmade : made ++ [] = (σ.after (.finish .completed)).whole := by
        rw [hwhole, h.ahead hr, hleft]
      exact ⟨fun hr' => absurd hr' hend, hmade ▸ List.prefix_rfl, fun hr' => absurd hr' hend,
        fun _ => hmade⟩
    · exact h.of_still rfl rfl hwhole fun hr' => absurd hr' hend

/-- A course takes it on by all of its ticks. -/
theorem course {strict : Prop} {σ' : Side} {acts : List (Side × Act)}
    (h : Course strict σ acts σ') : ∀ {made completions}, σ.Walked made completions →
      σ'.Walked (made ++ ticksOf acts)
        (completions ++ acts.flatMap fun a => a.2.completion) := by
  induction h with
  | stop σ =>
    intro made completions h
    simpa [ticksOf] using h
  | act ha _ ih =>
    intro made completions h
    have h := ih (h.act ha)
    rw [List.append_assoc, List.append_assoc] at h
    exact h

end Walked

end Side

/-! ## Watches of ticks alone -/

/-- The watch sees nothing but ticks. -/
structure Watch.OfTicks {β : Type} (w : Watch β) : Prop where
  event : ∀ e, w.see (.event e) = none
  effect : ∀ e, w.see (.effect e) = none

theorem ofTicks_tickWatch : tickWatch.OfTicks :=
  ⟨fun _ => rfl, fun _ => rfl⟩

namespace Watch.OfTicks

variable {α β : Type} {w : Watch β} (hw : w.OfTicks)

include hw

theorem ofEvent (e : RunEvent) : w.ofEvent e = [] := by
  rw [Watch.ofEvent, hw.event]
  rfl

theorem ofEffect (e : Effect) : w.ofEffect e = [] := by
  rw [Watch.ofEffect, hw.effect]
  rfl

theorem ofRelease (sending : Bool) : w.ofRelease sending = [] := by
  rw [Watch.ofRelease, hw.ofEffect, hw.ofEvent]
  exact ite_self _

theorem ofCleanup : w.ofCleanup = [] := by
  rw [Watch.ofCleanup, hw.ofEffect, hw.ofEvent]
  rfl

theorem ofTick (tick : Tick) (kind : TickClass) (age : Option Float32) :
    w.ofTick tick kind age = (w.see (.tick tick kind age)).toList := by
  rw [Watch.ofTick, Watch.ofCommand, hw.ofEvent, hw.ofEvent, ite_self, List.append_nil,
    List.append_nil]

theorem alike : w.TakesCommandsAlike :=
  ⟨fun _ _ _ _ => hw.effect _, fun _ _ => hw.effect _,
    fun _ _ => (hw.event _).trans (hw.event _).symm,
    fun _ _ => (hw.event _).trans (hw.event _).symm⟩

theorem seen_send (t : Turn α) (m : Message) : (t.send m).seen w = t.seen w := by
  rw [Turn.seen_send, hw.ofEffect, List.append_nil]

theorem seen_record (t : Turn α) (e : RunEvent) : (t.record e).seen w = t.seen w := by
  rw [Turn.seen_record, hw.ofEvent, List.append_nil]

theorem seen_finish (t : Turn α) (outcome : Phase) : (t.finish outcome).seen w = t.seen w := by
  rw [Turn.seen_finish, Watch.ofEnd, hw.ofEvent, hw.ofEffect, hw.ofEvent, hw.ofCleanup, hw.ofEvent,
    ite_self]
  exact List.append_nil _

theorem seen_begin (t : Turn α) : t.begin.seen w = t.seen w := by
  rw [Turn.seen_begin, hw.ofCleanup, ite_self, Watch.ofStart, hw.ofEffect, hw.ofEvent]
  exact List.append_nil _

theorem seen_passTime (t : Turn α) (dt : Float32) : (t.passTime dt).1.seen w = t.seen w :=
  t.seen_passTime dt w fun _ => hw.ofEvent _

variable [Avatar α]

theorem seen_passGate (t : Turn α) (tick : Tick) : (t.passGate tick).1.seen w = t.seen w := by
  obtain ⟨hg, -⟩ | ⟨delay, hg, -⟩ | ⟨t', hg, -, -, -, hseen⟩ := t.passGate_cases tick
  · rw [hg]
  · rw [hg]
    rfl
  · rw [hg, hseen, hw.ofRelease, hw.ofEvent]
    exact List.append_nil _

/-- Of a tick that is made, such a watch sees the tick. -/
theorem seen_makeTick (t : Turn α) (tick : Tick) : (t.makeTick tick).seen w =
    t.seen w ++ (w.see (.tick tick (t.tickClass tick) t.exec.age)).toList := by
  rw [Turn.seen_makeTick t w tick hw.alike, hw.ofRelease, hw.ofEffect, hw.ofTick, List.append_nil,
    List.append_nil]

end Watch.OfTicks

/-! ## Whatever happens to a run -/

/-- What may happen to a run while its script is left alone. -/
inductive Call where
  | update (dt : Float32)
  | release
  | peerEnd
  /-- The other device has made a command. -/
  | command (name : String) (args : List String)
  | interrupt
  | clearFlag

namespace Turn

variable {α : Type}

/-- The ticks made so far. -/
def ticks (t : Turn α) : List Tick :=
  t.seen tickWatch

/-- The script was completed. -/
def hasCompleted (t : Turn α) : Prop :=
  .event .completed ∈ t.deeds

instance (t : Turn α) : Decidable t.hasCompleted :=
  inferInstanceAs (Decidable (_ ∈ _))

variable [Avatar α]

/-- The executor takes the call. -/
def serve (t : Turn α) : Call → Turn α
  | .update dt => t.update dt
  | .release => t.afterRelease
  | .peerEnd => t.afterPeerEnd
  | .command name args => (t.dispatch name args true).1
  | .interrupt => t.interrupt
  | .clearFlag => t.mapExec Executor.clearFlag

/-- The turn belongs to a run through the ticks, and has made as many of them as its side has. -/
structure Walked (whole : List Tick) (t : Turn α) : Prop where
  sound : t.Sound
  whole : t.side.whole = whole
  walked : t.side.Walked t.ticks (t.seen completionWatch)
  follows : ∀ {β : Type} {w : Watch β} {g : Tick → List β},
    w.Follows g → t.seen w = t.ticks.flatMap g

omit [Avatar α] in
/-- A turn has completed its run if a completion is seen. -/
theorem hasCompleted_iff {t : Turn α} : t.hasCompleted ↔ t.seen completionWatch ≠ [] := by
  rw [hasCompleted, ← Array.mem_toList_iff, seen]
  constructor
  · intro h hnone
    cases List.filterMap_eq_nil_iff.mp hnone _ h
  · intro h
    obtain ⟨u, hu⟩ := List.exists_mem_of_ne_nil _ h
    obtain ⟨d, hd, hsee⟩ := List.mem_filterMap.mp hu
    have hd' : d = .event .completed := by
      unfold completionWatch at hsee
      dsimp only at hsee
      split at hsee
      · rfl
      · cases hsee
    exact hd' ▸ hd

namespace Walked

variable {whole : List Tick} {t : Turn α}

/-- A turn that goes on is walked on. -/
theorem goes {t' : Turn α} {acts : List (Side × Act)} (h : t.Walked whole) (hg : Goes t t' acts) :
    t'.Walked whole := by
  have hticks : t'.ticks = t.ticks ++ ticksOf acts := by
    rw [ticks, hg.seen _ follows_tickWatch.alike, follows_tickWatch.ofCourse,
      List.flatMap_singleton']
    rfl
  have hdone : t'.seen completionWatch =
      t.seen completionWatch ++ acts.flatMap fun a => a.2.completion := by
    rw [hg.seen _ alike_completionWatch, Watch.ofCourse]
    simp only [ofAct_completionWatch]
  have hw := h.walked.course hg.course
  refine ⟨hg.sound, hg.course.whole.trans h.whole, ?_, fun hf => ?_⟩
  · rw [hticks, hdone]
    exact hw
  · rw [hg.seen _ hf.alike, hf.ofCourse, h.follows hf, hticks, List.flatMap_append]

/-- What is no deed of a run and does not move its side leaves the walk where it is. -/
theorem of_same {t' : Turn α} (h : t.Walked whole) (hs : t'.Sound)
    (hwhole : t'.side.whole = t.side.whole)
    (hrun : t'.side.isRunning = true → t.side.isRunning = true ∧ t'.side.left = t.side.left)
    (hseen : ∀ {β : Type} {w : Watch β} {g : Tick → List β}, w.Follows g → t'.seen w = t.seen w)
    (hdone : t'.seen completionWatch = t.seen completionWatch) : t'.Walked whole := by
  have hticks : t'.ticks = t.ticks := hseen follows_tickWatch
  refine ⟨hs, hwhole.trans h.whole, ?_, fun hf => ?_⟩
  · rw [hticks, hdone]
    exact h.walked.of_same hwhole hrun
  · rw [hseen hf, h.follows hf, hticks]

/-- Whatever happens, the walk stays one through the ticks. -/
theorem serve (h : t.Walked whole) (call : Call) : (t.serve call).Walked whole := by
  cases call with
  | update dt =>
    obtain ⟨acts, hg⟩ := goes_update h.sound dt
    exact h.goes hg
  | interrupt =>
    obtain ⟨acts, hg⟩ := goes_interrupt h.sound
    exact h.goes hg
  | release =>
    refine h.of_same (sound_afterRelease h.sound) rfl (fun hr => ⟨hr, rfl⟩) (fun hf => ?_) ?_
    · exact (t.seen_afterRelease _).trans (by rw [hf.unlockReceived, List.append_nil])
    · exact (t.seen_afterRelease _).trans (List.append_nil _)
  | peerEnd =>
    have hσ := t.side_afterPeerEnd
    refine h.of_same (sound_afterPeerEnd h.sound) ?_ (fun hr => ?_) (fun hf => ?_) ?_
    · exact (congrArg Side.whole hσ).trans t.side.like_peerEnded.whole
    · obtain ⟨hr, hl⟩ := Side.running_of_peerEnded
        (show t.side.peerEnded.isRunning = true from hσ ▸ hr)
      exact ⟨hr, (congrArg Side.left hσ).trans hl⟩
    · refine (t.seen_afterPeerEnd _).trans ?_
      rw [hf.peerFinished, hf.ofCleanup, ite_self, List.append_nil, List.append_nil]
    · refine (t.seen_afterPeerEnd _).trans ?_
      cases t.side.due <;> exact List.append_nil _
  | command name args =>
    have hσ := t.side_dispatch name args true
    refine h.of_same (sound_dispatch h.sound name args true) (congrArg Side.whole hσ)
      (fun hr => ⟨?_, congrArg Side.left hσ⟩) (fun hf => ?_) ?_
    · rw [← hσ]
      exact hr
    · exact (t.seen_dispatch _ name args true hf.alike).trans
        (by rw [hf.ofCommand, List.append_nil])
    · exact (t.seen_dispatch _ name args true alike_completionWatch).trans (List.append_nil _)
  | clearFlag =>
    exact h.of_same ⟨h.sound.waits, h.sound.runs, h.sound.free⟩ rfl (fun hr => ⟨hr, rfl⟩)
      (fun _ => rfl) rfl

/-- Whatever calls are served, the turn walks through its script. -/
theorem foldl_serve (h : t.Walked whole) (calls : List Call) :
    (calls.foldl Turn.serve t).Walked whole := by
  induction calls generalizing t with
  | nil => exact h
  | cons call calls ih => exact ih (h.serve call)

/-- A run that has just begun. -/
theorem begin (e : Executor α) (s : Script) :
    (e.on s).begin.Walked (s.expansion e.waitRule) := by
  have hσ := (e.on s).side_begin
  have hseen : ∀ {β : Type} {w : Watch β} {g : Tick → List β}, w.Follows g →
      (e.on s).begin.seen w = [] := by
    intro β w g hf
    rw [seen_begin, hf.ofCleanup, hf.ofStart, ite_self]
    rfl
  have hticks : (e.on s).begin.ticks = [] := hseen follows_tickWatch
  have hdone : (e.on s).begin.seen completionWatch = [] := by
    rw [seen_begin]
    cases (e.on s).exec.cleanupDue <;> rfl
  refine ⟨sound_begin _, congrArg Side.whole hσ, ?_, fun hf => ?_⟩
  · rw [hσ, hticks, hdone]
    exact ⟨fun _ => rfl, List.nil_prefix, fun _ => rfl, fun h => absurd rfl h⟩
  · rw [hseen hf, hticks]
    rfl

end Walked

/-- The ticks of a run are a prefix of the expansion of its script whatever happens to it. They
are recorded as they are made, and the commands that the device carries out itself are those of
the ticks. Once the run is completed they are the whole expansion, as many as the script counts
unless it counts up to the cap. -/
theorem ticks_after_run (e : Executor α) (s : Script) (he : e.isRunning = false)
    (calls : List Call) :
    let t := calls.foldl serve (e.on s).run.1
    t.ticks <+: s.expansion e.waitRule ∧
    t.seen tickEventWatch = t.ticks.map Tick.recorded ∧
    t.seen commandWatch = t.ticks.filterMap Tick.command? ∧
    (t.hasCompleted → t.ticks = s.expansion e.waitRule ∧
      ((s.tickCount e.waitRule).toNat < tickCap →
        t.ticks.length = (s.tickCount e.waitRule).toNat)) := by
  intro t
  obtain ⟨acts, -, hg⟩ := goes_run (t := e.on s) he
  have h : t.Walked (s.expansion e.waitRule) := ((Walked.begin e s).goes hg).foldl_serve calls
  refine ⟨?_, ?_, ?_, fun hc => ?_⟩
  · rw [← h.whole]
    exact h.walked.behind
  · rw [h.follows follows_tickEventWatch, List.map_eq_flatMap]
  · rw [h.follows follows_commandWatch, List.filterMap_eq_flatMap_toList]
  · have hall : t.ticks = s.expansion e.waitRule := by
      rw [← h.whole]
      exact h.walked.finished (hasCompleted_iff.mp hc)
    refine ⟨hall, fun hcap => ?_⟩
    rw [hall, Script.length_expansion_of_tickCount_lt hcap]

/-- A loop with a wait in an inner loop, an empty inner loop and a disabled command. -/
def spiral : Script :=
  ⟨[.repeated 2
    [.ofName "MOVE" ["EAST"], .repeated 3 [], (Command.ofName "MOVE" ["WEST"]).setDisabled true,
      .repeated 1 [.ofName "MOVE" ["SOUTH"], .ofName "Continue_Sec" ["1"]]]]⟩

/-- A device that runs without a lock. -/
def freeDevice : Executor GridAvatar :=
  (Simulation.device { SimulationSettings.standard with mode := .async } .master).exec

/-- A run of the spiral is completed after its eight ticks. -/
theorem ticks_after_spiral_run :
    freeDevice.isRunning = false ∧
    (let t := (List.replicate 8 (.update 0.5)).foldl serve (freeDevice.on spiral).run.1
    t.hasCompleted ∧ t.ticks = spiral.expansion freeDevice.waitRule ∧ t.ticks.length = 8) := by
  have hidle : freeDevice.isRunning = false := rfl
  have hc : ((List.replicate 8 (.update 0.5)).foldl serve
      (freeDevice.on spiral).run.1).hasCompleted := by decide +kernel
  obtain ⟨-, -, -, h⟩ := ticks_after_run freeDevice spiral hidle (List.replicate 8 (.update 0.5))
  obtain ⟨hall, hcount⟩ := h hc
  have hsize : (spiral.tickCount freeDevice.waitRule).toNat = 8 := by decide +kernel
  exact ⟨hidle, hc, hall, (hcount (by rw [hsize]; decide)).trans hsize⟩

end Turn

end Tandem
