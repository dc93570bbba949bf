import Tandem.Proofs.Run.Ticks

/-!
# What a run does not do itself

A run starts because somebody has called for it, and what an executor hears of the other device it
has been told. So a watch that sees nothing of the acts of a run (`Watch.SkipsActs`) sees exactly
what the executor was called for : the start of each run, and each command of the other device
(`Turn.seen_serve`, `Turn.seen_run`).

Three such watches see how often runs have started (`startWatch`), how often the other device was
asked for one (`askWatch`), and which commands of the other device were carried out (`remoteWatch`).
-/

namespace Tandem

/-- Sees the start of a run. -/
def startWatch : Watch Unit where
  see
    | .event (.runStarted ..) => some ()
    | _ => none
  see_logged _ := rfl

/-- Sees that the other device is asked for a run. -/
def askWatch : Watch Unit where
  see
    | .effect (.sent .run) => some ()
    | _ => none
  see_logged _ := rfl

/-- Sees the commands of the other device that are carried out, whatever comes of them. -/
def remoteWatch : Watch String where
  see
    | .event (.dispatched command true) => some command
    | .event (.deadAvatar command true) => some command
    | .event (.unrecognized command true) => some command
    | _ => none
  see_logged _ := rfl

/-- The deed is none of those that a run does itself. -/
def Deed.isAside : Deed → Bool
  | .event (.runStarted ..) | .effect (.sent .run) => true
  | .event (.dispatched _ remote) | .event (.deadAvatar _ remote)
  | .event (.unrecognized _ remote) => remote
  | _ => false

namespace Watch

variable {β : Type} {w : Watch β} {start : List β}

/-- The watch sees nothing of what a run does itself, and that of its start. -/
structure SkipsActs (w : Watch β) (start : List β) : Prop where
  alike : w.TakesCommandsAlike
  ofAct : ∀ σ a, w.ofAct σ a = []
  ofCleanup : w.ofCleanup = []
  ofStart : ∀ mode role n, w.ofStart mode role n = start
  reset : w.ofEvent .reset = []
  unlockReceived : w.ofEvent .unlockReceived = []
  peerFinished : w.ofEvent .peerFinished = []

/-- A watch that sees nothing but what goes on aside, and the start of a run, skips the acts. -/
theorem SkipsActs.of_quiet (alike : w.TakesCommandsAlike)
    (quiet : ∀ d, d.isAside = false → w.see d = none)
    (starts : ∀ mode role n, w.ofEvent (.runStarted mode role n) = start) : w.SkipsActs start := by
  have effect : ∀ e, (Deed.effect e).isAside = false → w.ofEffect e = [] :=
    fun e h => by rw [ofEffect, quiet _ h]; rfl
  have event : ∀ e, (Deed.event e).isAside = false → w.ofEvent e = [] :=
    fun e h => by rw [ofEvent, quiet _ h]; rfl
  have release : ∀ sending, w.ofRelease sending = [] := by
    intro sending
    rw [ofRelease, effect (.sent .unlock) rfl, event .unlockSent rfl]
    cases sending <;> rfl
  have cleanup : w.ofCleanup = [] := by
    rw [Watch.ofCleanup, effect (.runShown false) rfl, event .cleanup rfl]
    rfl
  refine ⟨alike, fun σ a => ?_, cleanup, fun mode role n => ?_, event _ rfl, event _ rfl,
    event _ rfl⟩
  · cases a with
    | tick t kind age =>
      have hcommand : w.ofCommand t.name t.args false = [] := event _ rfl
      rw [Watch.ofAct, ofTick, quiet _ rfl, event (.tick ..) rfl, hcommand, release,
        effect (.stepShown _) rfl]
      cases t.wait <;> rfl
    | hold t =>
      rw [Watch.ofAct, release, event (.waitingForPeer _) rfl]
      rfl
    | resume => rfl
    | timeOut held => exact event _ rfl
    | finish outcome =>
      have hend : w.ofEvent (Turn.endEvent outcome) = [] := by
        unfold Turn.endEvent
        split <;> exact event _ rfl
      rw [Watch.ofAct, ofEnd, hend, effect (.sent .finish) rfl, event .finishSent rfl, cleanup,
        event .cleanupDeferred rfl, ite_self]
      rfl
  · rw [Watch.ofStart, effect (.runShown true) rfl, starts]
    rfl

/-- Of a run, only its start is seen as a start. -/
theorem skipsActs_startWatch : startWatch.SkipsActs [()] := by
  refine .of_quiet ⟨fun _ _ _ _ => rfl, fun _ _ => rfl, fun _ _ => rfl, fun _ _ => rfl⟩
    (fun d h => ?_) fun _ _ _ => rfl
  rcases d with _ | e | _
  · rfl
  · cases e <;> first | rfl | cases h
  · rfl

/-- Nothing that a run does itself asks for a run. -/
theorem skipsActs_askWatch : askWatch.SkipsActs [] := by
  refine .of_quiet ⟨fun _ _ _ _ => rfl, fun _ _ => rfl, fun _ _ => rfl, fun _ _ => rfl⟩
    (fun d h => ?_) fun _ _ _ => rfl
  unfold askWatch
  dsimp only
  split
  · cases h
  · rfl

/-- Nothing that a run does itself is a command of the other device. -/
theorem skipsActs_remoteWatch : remoteWatch.SkipsActs [] := by
  refine .of_quiet ⟨fun _ _ _ _ => rfl, fun _ _ => rfl, fun _ remote => ?_, fun _ remote => ?_⟩
    (fun d h => ?_) fun _ _ _ => rfl
  · cases remote <;> rfl
  · cases remote <;> rfl
  · unfold remoteWatch
    dsimp only
    split
    all_goals first | rfl | cases h

/-- What such a watch sees of a call. -/
def ofCall (w : Watch β) : Call → List β
  | .command name args => w.ofCommand name args true
  | _ => []

end Watch

namespace Turn

variable {α β : Type} {w : Watch β} {start : List β} {t : Turn α} [Avatar α]

/-- So nothing is seen of the acts of a run that goes on. -/
theorem Goes.seen_of_skipsActs {t' : Turn α} {acts : List (Side × Act)} (h : Goes t t' acts)
    (hw : w.SkipsActs start) : t'.seen w = t.seen w := by
  have hcourse : w.ofCourse acts = [] := List.flatMap_eq_nil_iff.mpr fun _ _ => hw.ofAct _ _
  rw [h.seen w hw.alike, hcourse, List.append_nil]

/-- Of a call, the watch sees the command that is told of. -/
theorem seen_serve (h : t.Sound) (hw : w.SkipsActs start) (call : Call) :
    (t.serve call).seen w = t.seen w ++ w.ofCall call := by
  cases call with
  | update dt =>
    obtain ⟨acts, hg⟩ := goes_update h dt
    exact (hg.seen_of_skipsActs hw).trans (List.append_nil _).symm
  | interrupt =>
    obtain ⟨acts, hg⟩ := goes_interrupt h
    exact (hg.seen_of_skipsActs hw).trans (List.append_nil _).symm
  | release =>
    rw [serve, seen_afterRelease, hw.unlockReceived]
    rfl
  | peerEnd =>
    rw [serve, seen_afterPeerEnd, hw.peerFinished, hw.ofCleanup, ite_self]
    rfl
  | command name args => exact t.seen_dispatch w name args true hw.alike
  | clearFlag => exact (List.append_nil _).symm

/-- Of a run that is started, the watch sees the start. -/
theorem seen_run (hr : t.exec.isRunning = false) (hw : w.SkipsActs start) :
    t.run.1.seen w = t.seen w ++ start := by
  obtain ⟨acts, -, hg⟩ := goes_run (t := t) hr
  rw [hg.seen_of_skipsActs hw, seen_begin, hw.ofCleanup, hw.ofStart, ite_self, List.nil_append]

/-- A call leaves the turn sound, and its script as it is. -/
theorem sound_serve (h : t.Sound) (call : Call) :
    (t.serve call).Sound ∧ (t.serve call).side.whole = t.side.whole := by
  cases call with
  | update dt =>
    obtain ⟨acts, hg⟩ := goes_update h dt
    exact ⟨hg.sound, hg.course.whole⟩
  | interrupt =>
    obtain ⟨acts, hg⟩ := goes_interrupt h
    exact ⟨hg.sound, hg.course.whole⟩
  | release => exact ⟨sound_afterRelease h, rfl⟩
  | peerEnd =>
    exact ⟨sound_afterPeerEnd h,
      (congrArg Side.whole t.side_afterPeerEnd).trans t.side.like_peerEnded.whole⟩
  | command name args =>
    exact ⟨sound_dispatch h name args true, congrArg Side.whole (t.side_dispatch name args true)⟩
  | clearFlag => exact ⟨⟨h.waits, h.runs, h.free⟩, rfl⟩

theorem sound_run (hr : t.exec.isRunning = false) :
    t.run.1.Sound ∧ t.run.1.side.whole = t.side.whole := by
  obtain ⟨acts, -, hg⟩ := goes_run (t := t) hr
  have hbegin : t.begin.side.whole = t.side.whole := by
    rw [side_begin]
    rfl
  exact ⟨hg.sound, hg.course.whole.trans hbegin⟩

end Turn

end Tandem
