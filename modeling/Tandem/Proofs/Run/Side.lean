import Tandem.Proofs.Run.Frame
import Tandem.Proofs.Run.Remaining

/-!
# The side of a run

To the synchronisation, a device is a `Side` : the ticks of its script, those still ahead of it,
its phase, its lock, and what it owes the other device and knows of it. What a device does to
its side is a short list of acts (`Act`), each with a guard (`Side.Allows`) and a result
(`Side.after`). Time, avatars and the cursor are not part of a side.

What a device does is a `Side.Course`, a list of acts each of which is allowed where it is done.
How the operations on an executor take its side through courses is in `Tandem.Proofs.Run.Course`.
-/

namespace Tandem

/-- What the synchronisation knows of a device. -/
structure Side where
  role : Role
  mode : SyncMode
  /-- The ticks of the script. -/
  whole : List Tick
  /-- The ticks that are still to be made. -/
  left : List Tick
  phase : Phase
  locked : Bool
  /-- The device has yet to release the other one. -/
  armed : Bool
  /-- The other device is known to have finished. -/
  heard : Bool
  /-- The run is over, but not cleaned up. -/
  due : Bool

/-- What a device in a run does to its side. -/
inductive Act where
  /-- A tick of that class is made, so long after the one before it. -/
  | tick (t : Tick) (kind : TickClass) (age : Option Float32)
  /-- The tick is held back until the other device releases this one. -/
  | hold (t : Tick)
  /-- The lock is open, and the run goes on. -/
  | resume
  /-- The lock was held for so long, which is too long, and the run goes on. -/
  | timeOut (held : Float32)
  /-- The run ends. -/
  | finish (outcome : Phase)
deriving DecidableEq

namespace Side

/-- A run is in progress. -/
def isRunning (σ : Side) : Bool :=
  σ.phase = .running || σ.phase = .waitingForPeer

/-- Ticks that take part in the synchronisation need not wait. -/
def isOpen (σ : Side) : Prop :=
  σ.mode = .async ∨ σ.locked = false

/-- A run of the side starts with its lock closed. -/
def startsLocked (σ : Side) : Bool :=
  σ.mode = .cmdSwitching && σ.role = .master

/-- The side before and after a run. -/
def cleaned (σ : Side) : Side :=
  { σ with
    left := σ.whole, phase := .idle, locked := σ.startsLocked, armed := false, heard := false,
    due := false }

/-- The side at the start of a run. -/
def begun (σ : Side) : Side :=
  { σ.cleaned with phase := .running }

/-- The side once its run has ended. -/
def ended (σ : Side) (outcome : Phase) : Side :=
  if σ.heard then σ.cleaned else { σ with phase := outcome, due := true }

/-- The other device has released this one. -/
def released (σ : Side) : Side :=
  { σ with locked := false }

/-- The other device has finished. -/
def peerEnded (σ : Side) : Side :=
  if σ.due then σ.cleaned else { σ with locked := false, heard := true }

/-- A tick of that class locks the side. -/
def locksAfter (σ : Side) (kind : TickClass) : Bool :=
  kind.lock && !σ.heard && σ.mode ≠ .async

/-- A tick of that class releases the other device at once. -/
def releasesAfter (σ : Side) (kind : TickClass) : Bool :=
  kind.lock && !σ.heard && σ.mode = .stepSwitching

/-- A tick of that class obliges the side to release the other device later. -/
def armsAfter (σ : Side) (kind : TickClass) : Bool :=
  kind.lock && !σ.heard && σ.mode = .cmdSwitching

/-- A side that is locked by a tick releases the other device at once, or has to do so later. -/
theorem releasesAfter_or_armsAfter {σ : Side} {kind : TickClass} (h : σ.locksAfter kind = true) :
    σ.releasesAfter kind = true ∨ σ.armsAfter kind = true ∧ σ.mode = .cmdSwitching := by
  unfold locksAfter at h
  unfold releasesAfter armsAfter
  cases hm : σ.mode <;> simp_all

/-- The side releases the other device when it has to wait. -/
def owesRelease (σ : Side) : Bool :=
  σ.mode = .cmdSwitching && σ.armed

/-- The side after an act. -/
def after (σ : Side) : Act → Side
  | .tick _ kind _ =>
    { σ with
      left := σ.left.tail
      locked := σ.locksAfter kind || σ.locked
      armed := σ.armsAfter kind || σ.armed }
  | .hold _ =>
    { σ with phase := .waitingForPeer, armed := σ.armed && σ.mode ≠ .cmdSwitching }
  | .resume => { σ with phase := .running }
  | .timeOut _ => { σ with phase := .running, locked := false }
  | .finish outcome => σ.ended outcome

/-- The side can do the act. If it is `strict`, only an open side makes ticks that take part in
the synchronisation. -/
def Allows (strict : Prop) (σ : Side) : Act → Prop
  | .tick t kind _ =>
    σ.phase = .running ∧ σ.left.head? = some t ∧ (strict → kind.lock = true → σ.isOpen)
  | .hold _ => σ.phase = .running ∧ ¬σ.isOpen
  | .resume => σ.phase = .waitingForPeer ∧ σ.locked = false
  | .timeOut _ => σ.phase = .waitingForPeer ∧ σ.locked = true
  | .finish outcome =>
    σ.isRunning = true ∧ (outcome = .completed ∧ σ.left = [] ∨ outcome = .interrupted)

theorem isRunning_of_running {σ : Side} (h : σ.phase = .running) : σ.isRunning = true := by
  rw [isRunning, h]
  rfl

theorem isRunning_of_waiting {σ : Side} (h : σ.phase = .waitingForPeer) : σ.isRunning = true := by
  rw [isRunning, h]
  rfl

/-- A side whose run has ended has none. -/
theorem isRunning_ended {σ : Side} {outcome : Phase}
    (h : outcome = .completed ∨ outcome = .interrupted) : (σ.ended outcome).isRunning = false := by
  unfold ended
  split
  · rfl
  · obtain rfl | rfl := h <;> rfl

/-- The side of the same device, with the same script and in the same mode. -/
structure Like (σ σ' : Side) : Prop where
  role : σ'.role = σ.role
  mode : σ'.mode = σ.mode
  whole : σ'.whole = σ.whole

/-- An act leaves a side the same device with the same script. -/
theorem like_after (σ : Side) (a : Act) : σ.Like (σ.after a) := by
  cases a with
  | finish outcome =>
    unfold after ended
    dsimp only
    split <;> exact ⟨rfl, rfl, rfl⟩
  | tick | hold | resume | timeOut => exact ⟨rfl, rfl, rfl⟩

theorem like_peerEnded (σ : Side) : σ.Like σ.peerEnded := by
  unfold peerEnded
  split <;> exact ⟨rfl, rfl, rfl⟩

/-- What the other device has sent is heard in no act, and forgotten when the run ends only. -/
theorem heard_after {strict : Prop} {σ : Side} {a : Act} (ha : σ.Allows strict a)
    (hr : (σ.after a).isRunning = true) : (σ.after a).heard = σ.heard := by
  cases a with
  | finish outcome =>
    have hend : (σ.after (.finish outcome)).isRunning = false :=
      isRunning_ended (ha.2.imp And.left id)
    cases hend.symm.trans hr
  | tick | hold | resume | timeOut => rfl

/-- Only a run that is not to be cleaned up goes on. -/
theorem running_of_peerEnded {σ : Side} (h : σ.peerEnded.isRunning = true) :
    σ.isRunning = true ∧ σ.peerEnded.left = σ.left := by
  unfold peerEnded at h ⊢
  split at h
  · cases h
  · next hd =>
    rw [if_neg hd]
    exact ⟨h, rfl⟩

/-- A side acts in a run only. -/
theorem Allows.isRunning {strict : Prop} {σ : Side} : ∀ {a : Act}, σ.Allows strict a →
    σ.isRunning = true
  | .tick .., h => isRunning_of_running h.1
  | .hold _, h => isRunning_of_running h.1
  | .resume, h => isRunning_of_waiting h.1
  | .timeOut _, h => isRunning_of_waiting h.1
  | .finish _, h => h.1

/-- A run that goes on when the other side ends knows of that. -/
theorem heard_peerEnded {σ : Side} (h : σ.peerEnded.isRunning = true) :
    σ.peerEnded.heard = true := by
  unfold peerEnded at h ⊢
  split at h
  · cases h
  · next hd => rw [if_neg hd]

/-- The acts lead from the first side to the last one, each from the side that it stands with. -/
inductive Course (strict : Prop) : Side → List (Side × Act) → Side → Prop
  | stop (σ : Side) : Course strict σ [] σ
  | act {σ σ' : Side} {a : Act} {acts : List (Side × Act)} :
    σ.Allows strict a → Course strict (σ.after a) acts σ' → Course strict σ ((σ, a) :: acts) σ'

namespace Course

variable {strict : Prop}

theorem one {σ : Side} {a : Act} (h : σ.Allows strict a) : Course strict σ [(σ, a)] (σ.after a) :=
  .act h (.stop _)

/-- A course goes on. -/
theorem append {σ σ' σ'' : Side} {acts acts' : List (Side × Act)} (h : Course strict σ acts σ')
    (h' : Course strict σ' acts' σ'') : Course strict σ (acts ++ acts') σ'' := by
  induction h with
  | stop => exact h'
  | act ha _ ih => exact .act ha (ih h')

/-- A course changes nothing of the script. -/
theorem whole {σ σ' : Side} {acts : List (Side × Act)} (h : Course strict σ acts σ') :
    σ'.whole = σ.whole := by
  induction h with
  | stop => rfl
  | act _ _ ih => rw [ih, (like_after _ _).whole]

end Course

end Side

/-- What is seen of an act of the side. -/
def Watch.ofAct {β : Type} (w : Watch β) (σ : Side) : Act → List β
  | .tick t kind age =>
    w.ofTick t kind age ++ (w.ofRelease (σ.releasesAfter kind) ++ w.ofEffect (.stepShown t.top))
  | .hold t => w.ofRelease σ.owesRelease ++ w.ofEvent (.waitingForPeer t.top)
  | .resume => []
  | .timeOut held => w.ofEvent (.lockTimeout held)
  | .finish outcome => w.ofEnd outcome σ.heard

/-- What is seen of a course of acts. -/
def Watch.ofCourse {β : Type} (w : Watch β) (acts : List (Side × Act)) : List β :=
  acts.flatMap fun a => w.ofAct a.1 a.2

/-! ## The side of an executor -/

namespace Core

/-- The side of an executor with that core and that script. -/
def side (c : Core) (s : Script) : Side where
  role := c.policy.role
  mode := c.policy.mode
  whole := s.expansion c.waitRule
  left := c.cursor.remaining c.waitRule s
  phase := c.phase
  locked := c.policy.locked
  armed := c.policy.armed
  heard := c.policy.peerFinished
  due := c.cleanupDue

variable (c : Core) (s : Script)

theorem side_cleaned : c.cleaned.side s = (c.side s).cleaned := by
  simp only [side, Side.cleaned, cleaned, Cursor.remaining_start]
  rfl

theorem side_begun : c.begun.side s = (c.side s).begun := by
  simp only [side, Side.begun, Side.cleaned, begun, Cursor.remaining_start]
  rfl

theorem side_ended (outcome : Phase) :
    (c.ended outcome).side s = (c.side s).ended outcome := by
  unfold ended Side.ended
  dsimp only
  split
  · next h => rw [if_pos (by exact h), side_cleaned]; rfl
  · next h => rw [if_neg (by exact h)]; rfl

theorem side_heldBack (t : Tick) : c.heldBack.side s = (c.side s).after (.hold t) := by
  cases hm : c.policy.mode <;>
    simp [side, heldBack, Side.after, SyncPolicy.handedOver, hm, waitRule]

/-- The cursor in front of a tick moves past it when the tick is made. -/
theorem side_ticked {c' : Cursor} {t : Tick} (h : c.cursor.next? c.waitRule s = some (c', t))
    (kind : TickClass) (age : Option Float32) :
    ({ c with cursor := c' }.ticked kind).side s = (c.side s).after (.tick t kind age) := by
  obtain ⟨-, h⟩ := Cursor.remaining_of_next?_eq_some h
  simp only [ticked, SyncPolicy.afterTick_eq, side, Side.after, h, List.tail_cons]
  rfl

/-- Running flags make no difference to the side. -/
theorem side_congr {s s' : Script} (h : s'.clearRunning = s.clearRunning) :
    c.side s' = c.side s := by
  have hr : ∀ cursor : Cursor,
      cursor.remaining c.waitRule s' = cursor.remaining c.waitRule s :=
    Cursor.remaining_congr h
  simp only [side, ← Cursor.remaining_start, hr]

end Core

end Tandem
