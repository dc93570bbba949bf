import Tandem.Proofs.Run.Course
import Mathlib.Logic.Function.Basic
import Mathlib.Logic.Relation

/-!
# Views of two sides

What two devices do to each other is about little of them : their sides, the signals on their
way, and a history of signs (`Deed.sign?`). This is a `View`. A view takes steps (`View.Step`) :
a side does an act, or hears a signal, or a signal is lost. Where the channels are `fifo`, signals
are heard in the order in which they were sent, and none is lost.

Once one side has asked for a run of both (`View.Asked`), each side starts once, and a side that
has not started does nothing : `View.Orderly`, which every step preserves (`View.Orderly.step`).
-/

namespace Tandem

open Relation

/-! ## Signals and signs -/

/-- A message that is no command. -/
inductive Signal where
  | run
  | unlock
  | finish
deriving DecidableEq, Repr

/-- The signal that the message is, if it is one. -/
def Message.signal? : Message → Option Signal
  | command _ _ => none
  | run => some .run
  | unlock => some .unlock
  | finish => some .finish

/-- What a deed means to the synchronisation. -/
inductive Sign where
  /-- A tick that takes part in the synchronisation. -/
  | tick
  /-- The device has waited for too long and opened its lock. -/
  | timeout
  /-- A run has started. -/
  | start
  /-- The other device has finished. -/
  | peerEnd
  | sent (s : Signal)
deriving DecidableEq, Repr

/-- What the deed means to the synchronisation, if anything. -/
def Deed.sign? : Deed → Option Sign
  | .tick _ kind _ => if kind.lock then some .tick else none
  | .event (.lockTimeout _) => some .timeout
  | .event (.runStarted ..) => some .start
  | .event .peerFinished => some .peerEnd
  | .effect (.sent m) => m.signal?.map .sent
  | _ => none

/-- The signal that is sent, if one is. -/
def Sign.signal? : Sign → Option Signal
  | sent s => some s
  | _ => none

/-- Sees the signs. -/
def signWatch : Watch Sign where
  see := Deed.sign?
  see_logged _ := rfl

theorem alike_signWatch : signWatch.TakesCommandsAlike :=
  ⟨fun _ _ _ _ => rfl, fun _ _ => rfl, fun _ _ => rfl, fun _ _ => rfl⟩

namespace Side

/-- The signs of an act. -/
def signs (σ : Side) : Act → List Sign
  | .tick _ kind _ =>
    (if kind.lock then [.tick] else []) ++ if σ.releasesAfter kind then [.sent .unlock] else []
  | .hold _ => if σ.owesRelease then [.sent .unlock] else []
  | .resume => []
  | .timeOut _ => [.timeout]
  | .finish _ => [.sent .finish]

/-- The side when a signal is heard, before anything else is done. -/
def hear (σ : Side) : Signal → Side
  | .run => if σ.isRunning then σ else σ.begun
  | .unlock => σ.released
  | .finish => σ.peerEnded

/-- The signs that a signal is heard. -/
def hearSigns (σ : Side) : Signal → List Sign
  | .run => if σ.isRunning then [] else [.start]
  | .unlock => []
  | .finish => [.peerEnd]

end Side

theorem ofRelease_signWatch (sending : Bool) :
    signWatch.ofRelease sending = if sending then [.sent .unlock] else [] := by
  cases sending <;> rfl

/-- What is seen of an act are its signs. -/
theorem ofAct_signWatch (σ : Side) (a : Act) : signWatch.ofAct σ a = σ.signs a := by
  cases a with
  | tick t kind age =>
    have htick : signWatch.ofTick t kind age = if kind.lock then [.tick] else [] := by
      rw [Watch.ofTick,
        show signWatch.see (.tick t kind age) = if kind.lock then some .tick else none from rfl]
      cases t.wait <;> cases kind.lock <;> rfl
    rw [Watch.ofAct, Side.signs, ofRelease_signWatch, htick]
    exact congrArg _ (List.append_nil _)
  | hold t =>
    rw [Watch.ofAct, Side.signs, ofRelease_signWatch]
    exact List.append_nil _
  | resume => rfl
  | timeOut held => rfl
  | finish outcome =>
    rw [Watch.ofAct, Watch.ofEnd]
    cases outcome <;> cases σ.heard <;> rfl

/-! ## Histories -/

/-- The signs of the device of that role, in order. -/
def signsOf (q : Role) (history : List (Role × Sign)) : List Sign :=
  history.filterMap fun entry => if entry.1 = q then some entry.2 else none

section History

variable (q : Role) (signs : List Sign)

theorem signsOf_append (h h' : List (Role × Sign)) :
    signsOf q (h ++ h') = signsOf q h ++ signsOf q h' :=
  List.filterMap_append

theorem signsOf_self : signsOf q (signs.map fun sign => (q, sign)) = signs := by
  simp [signsOf, List.filterMap_map]

theorem signsOf_peer : signsOf q.peer (signs.map fun sign => (q, sign)) = [] := by
  simp [signsOf, List.filterMap_map, q.peer_ne.symm]

/-- The signs of one side are those that the history has of it. -/
theorem mem_signsOf {sign : Sign} {history : List (Role × Sign)} :
    sign ∈ signsOf q history ↔ (q, sign) ∈ history := by
  simp [signsOf]

end History

/-! ## Views and their steps -/

/-- What the synchronisation knows of a duet. -/
structure View where
  side : Role → Side
  inbox : Role → List Signal
  history : List (Role × Sign)

namespace View

/-- The side of that role has become another, with these signs. -/
def note (v : View) (r : Role) (σ : Side) (signs : List Sign) : View where
  side := Function.update v.side r σ
  inbox := Function.update v.inbox r.peer (v.inbox r.peer ++ signs.filterMap Sign.signal?)
  history := v.history ++ signs.map fun sign => (r, sign)

/-- The side of that role has done the act. -/
def act (v : View) (r : Role) (a : Act) : View :=
  v.note r ((v.side r).after a) ((v.side r).signs a)

/-- The side of that role has heard the signal. -/
def hear (v : View) (r : Role) (s : Signal) : View :=
  v.note r ((v.side r).hear s) ((v.side r).hearSigns s)

/-- The signals are what is on its way to that role. -/
def setInbox (v : View) (r : Role) (signals : List Signal) : View :=
  { v with inbox := Function.update v.inbox r signals }

/-! The other role is the only one that is not meant. -/

section Note

variable (v : View) (r : Role) (σ : Side) (signs : List Sign)

@[simp] theorem side_note_self : (v.note r σ signs).side r = σ := by
  simp [note]

@[simp] theorem side_note_peer : (v.note r σ signs).side r.peer = v.side r.peer := by
  simp [note, r.peer_ne]

@[simp] theorem inbox_note_self : (v.note r σ signs).inbox r = v.inbox r := by
  simp [note, r.peer_ne.symm]

@[simp] theorem inbox_note_peer :
    (v.note r σ signs).inbox r.peer = v.inbox r.peer ++ signs.filterMap Sign.signal? := by
  simp [note]

@[simp] theorem history_note :
    (v.note r σ signs).history = v.history ++ signs.map fun sign => (r, sign) := rfl

variable (signals : List Signal)

@[simp] theorem side_setInbox : (v.setInbox r signals).side = v.side := rfl

@[simp] theorem history_setInbox : (v.setInbox r signals).history = v.history := rfl

@[simp] theorem inbox_setInbox_self : (v.setInbox r signals).inbox r = signals := by
  simp [setInbox]

@[simp] theorem inbox_setInbox_peer : (v.setInbox r signals).inbox r.peer = v.inbox r.peer := by
  simp [setInbox, r.peer_ne]

theorem note_self : v.note r (v.side r) [] = v := by
  simp [note]

theorem setInbox_self : v.setInbox r (v.inbox r) = v := by
  simp [setInbox]

/-- An act takes nothing off the inbox, changes the side, and leaves its signs. -/
theorem act_eq (a : Act) : v.act r a =
    (v.setInbox r (v.inbox r)).note r ((v.side r).after a) ((v.side r).signs a) := by
  rw [setInbox_self]
  rfl

/-- What is noted in two steps can be noted at once. -/
theorem note_note (σ' : Side) (signs' : List Sign) :
    (v.note r σ signs).note r σ' signs' = v.note r σ' (signs ++ signs') := by
  simp [note, List.append_assoc]

end Note

/-- A step of a view. -/
inductive Step (strict fifo : Prop) (v : View) : View → Prop
  | act (r : Role) (a : Act) : (v.side r).Allows strict a → Step strict fifo v (v.act r a)
  | hear (r : Role) (s : Signal) (sooner later : List Signal) :
    v.inbox r = sooner ++ s :: later → (fifo → sooner = []) →
    Step strict fifo v ((v.setInbox r (sooner ++ later)).hear r s)
  | lose (r : Role) (s : Signal) (sooner later : List Signal) :
    v.inbox r = sooner ++ s :: later → ¬fifo → Step strict fifo v (v.setInbox r (sooner ++ later))

/-- A course of acts is as many steps. -/
theorem steps_course {strict fifo : Prop} {σ σ' : Side} {acts : List (Side × Act)}
    (h : Side.Course strict σ acts σ') : ∀ {v : View} {r : Role}, v.side r = σ →
      ReflTransGen (Step strict fifo) v (v.note r σ' (signWatch.ofCourse acts)) := by
  induction h with
  | stop σ =>
    rintro v r rfl
    rw [Watch.ofCourse, List.flatMap_nil, note_self]
  | @act σ σ' a acts ha _ ih =>
    rintro v r rfl
    have hrest := ih (side_note_self v r ((v.side r).after a) ((v.side r).signs a))
    rw [note_note] at hrest
    rw [Watch.ofCourse, List.flatMap_cons, ofAct_signWatch]
    exact .head (.act r a ha) hrest

end View

/-! ## From the start on -/

namespace View

/-- The side of that role has just begun a run, and asked its idle peer for one. -/
structure Asked (mode : SyncMode) (r : Role) (v : View) : Prop where
  role : ∀ q, (v.side q).role = q
  mode : ∀ q, (v.side q).mode = mode
  begun : ∃ σ : Side, v.side r = σ.begun
  idle : (v.side r.peer).isRunning = false
  own : v.inbox r = []
  peer : v.inbox r.peer = [.run]
  history : v.history = [(r, .sent .run), (r, .start)]

/-- The side of that role has started a run. -/
def started (v : View) (r : Role) : Prop :=
  (r, Sign.start) ∈ v.history

instance (v : View) (r : Role) : Decidable (v.started r) :=
  inferInstanceAs (Decidable (_ ∈ _))

/-- The number of ticks of the side that take part in the synchronisation. -/
def ticks (v : View) (q : Role) : Nat :=
  (signsOf q v.history).count .tick

/-- The number of times that the side has waited for too long. -/
def timeouts (v : View) (q : Role) : Nat :=
  (signsOf q v.history).count .timeout

/-- The number of releases on their way to the side. -/
def releases (v : View) (q : Role) : Nat :=
  (v.inbox q).count .unlock

section Started

variable (v : View) (r : Role) (σ : Side) (signs : List Sign)

/-- A side has started if it had, or starts now. -/
theorem started_note_self : (v.note r σ signs).started r ↔ v.started r ∨ .start ∈ signs := by
  simp [started]

/-- What one side does starts no run of the other one. -/
theorem started_note_peer : (v.note r σ signs).started r.peer ↔ v.started r.peer := by
  simp [started, r.peer_ne.symm]

theorem signsOf_note_self :
    signsOf r (v.note r σ signs).history = signsOf r v.history ++ signs := by
  rw [history_note, signsOf_append, signsOf_self]

theorem signsOf_note_peer :
    signsOf r.peer (v.note r σ signs).history = signsOf r.peer v.history := by
  rw [history_note, signsOf_append, signsOf_peer, List.append_nil]

/-- The ticks that a side makes are added to its own. -/
theorem ticks_note_self : (v.note r σ signs).ticks r = v.ticks r + signs.count .tick := by
  rw [ticks, signsOf_note_self, List.count_append, ticks]

theorem ticks_note_peer : (v.note r σ signs).ticks r.peer = v.ticks r.peer := by
  rw [ticks, signsOf_note_peer, ticks]

theorem timeouts_note_self :
    (v.note r σ signs).timeouts r = v.timeouts r + signs.count .timeout := by
  rw [timeouts, signsOf_note_self, List.count_append, timeouts]

theorem timeouts_note_peer : (v.note r σ signs).timeouts r.peer = v.timeouts r.peer := by
  rw [timeouts, signsOf_note_peer, timeouts]

variable (signals : List Signal)

theorem started_setInbox (q : Role) : (v.setInbox r signals).started q ↔ v.started q := Iff.rfl

theorem releases_note_self :
    ((v.setInbox r signals).note r σ signs).releases r = signals.count .unlock := by
  rw [releases, inbox_note_self, inbox_setInbox_self]

/-- A release that a side sends is on its way to the other one. -/
theorem releases_note_peer : ((v.setInbox r signals).note r σ signs).releases r.peer =
    v.releases r.peer + (signs.filterMap Sign.signal?).count .unlock := by
  rw [releases, inbox_note_peer, inbox_setInbox_peer, List.count_append, releases]

end Started

end View

namespace Side

/-- What a side does by itself starts no run. -/
theorem start_not_mem_signs (σ : Side) (a : Act) : .start ∉ σ.signs a := by
  cases a with
  | tick t kind age =>
    unfold signs
    cases kind.lock <;> cases σ.releasesAfter kind <;> simp
  | hold t =>
    unfold signs
    cases σ.owesRelease <;> simp
  | resume | timeOut | finish => simp [signs]

/-- The signals of an act. -/
def signals (σ : Side) (a : Act) : List Signal :=
  (σ.signs a).filterMap Sign.signal?

theorem run_not_mem_signals (σ : Side) (a : Act) : .run ∉ σ.signals a := by
  cases a with
  | tick t kind age =>
    unfold signals signs
    cases kind.lock <;> cases σ.releasesAfter kind <;> simp [Sign.signal?]
  | hold t =>
    unfold signals signs
    cases σ.owesRelease <;> simp [Sign.signal?]
  | resume | timeOut | finish => simp [signals, signs, Sign.signal?]

end Side

namespace View

/-- Since the side of role `r` has asked for a run, each side starts once, and does nothing before.
In order, the request to run is the first signal on its way. -/
structure Orderly (mode : SyncMode) (r : Role) (fifo : Prop) (v : View) : Prop where
  role : ∀ q, (v.side q).role = q
  mode : ∀ q, (v.side q).mode = mode
  asked : v.started r
  asleep : ∀ q, ¬v.started q → (v.side q).isRunning = false
  once : ∀ q, (v.inbox q).count .run ≤ 1
  done : ∀ q, v.started q → .run ∉ v.inbox q
  first : fifo → ∀ q, ¬v.started q → ∃ later, v.inbox q = .run :: later

namespace Orderly

variable {mode : SyncMode} {r : Role} {strict fifo : Prop} {v v' : View}

/-- At the start of a run everything is in order. -/
theorem of_asked (h : v.Asked mode r) : v.Orderly mode r fifo where
  role := h.role
  mode := h.mode
  asked := by simp [started, h.history]
  asleep q hq := by
    rcases q.eq_or_eq_peer r with rfl | rfl
    · exact absurd (by simp [started, h.history]) hq
    · exact h.idle
  once q := by
    rcases q.eq_or_eq_peer r with rfl | rfl
    · simp [h.own]
    · simp [h.peer]
  done q hq := by
    rcases q.eq_or_eq_peer r with rfl | rfl
    · simp [h.own]
    · simp [started, h.history, r.peer_ne] at hq
  first _ q hq := by
    rcases q.eq_or_eq_peer r with rfl | rfl
    · exact absurd (by simp [started, h.history]) hq
    · exact ⟨[], h.peer⟩

end Orderly

/-- What a step can be in an orderly view. -/
inductive Event (strict fifo : Prop) (v : View) : View → Prop
  | act (q : Role) (a : Act) : v.started q → (v.side q).Allows strict a →
    Event strict fifo v (v.act q a)
  /-- A request to run is heard, the only one there is. -/
  | start (q : Role) (sooner later : List Signal) : v.inbox q = sooner ++ .run :: later →
    .run ∉ sooner ++ later → ¬v.started q →
    Event strict fifo v ((v.setInbox q (sooner ++ later)).note q (v.side q).begun [.start])
  | release (q : Role) (sooner later : List Signal) : v.inbox q = sooner ++ .unlock :: later →
    (fifo → v.started q) →
    Event strict fifo v ((v.setInbox q (sooner ++ later)).note q (v.side q).released [])
  | peerEnd (q : Role) (sooner later : List Signal) : v.inbox q = sooner ++ .finish :: later →
    (fifo → v.started q) →
    Event strict fifo v ((v.setInbox q (sooner ++ later)).note q (v.side q).peerEnded [.peerEnd])
  | lose (q : Role) (s : Signal) (sooner later : List Signal) :
    v.inbox q = sooner ++ s :: later → ¬fifo →
    Event strict fifo v (v.setInbox q (sooner ++ later))

namespace Orderly

variable {mode : SyncMode} {r : Role} {strict fifo : Prop} {v v' : View}

/-- A side that is in a run has started one. -/
theorem started_of_isRunning (h : v.Orderly mode r fifo) {q : Role}
    (hq : (v.side q).isRunning = true) : v.started q := by
  by_contra hs
  rw [h.asleep q hs] at hq
  cases hq

/-- In order, a side that can hear anything but a request to run has started. -/
theorem started_of_first (h : v.Orderly mode r fifo) {q : Role} {s : Signal}
    {sooner later : List Signal} (hin : v.inbox q = sooner ++ s :: later)
    (hfirst : fifo → sooner = []) (hs : s ≠ .run) (hf : fifo) : v.started q := by
  by_contra hq
  obtain ⟨rest, hrest⟩ := h.first hf q hq
  rw [hin, hfirst hf] at hrest
  exact hs (List.cons.inj hrest).1

/-- A step of orderly sides is an event. -/
theorem event (h : v.Orderly mode r fifo) (hs : v.Step strict fifo v') :
    v.Event strict fifo v' := by
  cases hs with
  | act q a ha => exact .act q a (h.started_of_isRunning ha.isRunning) ha
  | lose q s sooner later hin hf => exact .lose q s sooner later hin hf
  | hear q s sooner later hin hfirst =>
    cases s with
    | unlock => exact .release q sooner later hin (h.started_of_first hin hfirst nofun)
    | finish => exact .peerEnd q sooner later hin (h.started_of_first hin hfirst nofun)
    | run =>
      have hq : ¬v.started q := fun hq => h.done q hq (by simp [hin])
      have honly : .run ∉ sooner ++ later := by
        have honce := h.once q
        rw [hin, List.count_append, List.count_cons_self] at honce
        rw [← List.count_eq_zero, List.count_append]
        omega
      have hhear : (v.setInbox q (sooner ++ later)).hear q .run =
          (v.setInbox q (sooner ++ later)).note q (v.side q).begun [.start] := by
        simp [hear, Side.hear, Side.hearSigns, h.asleep q hq]
      rw [hhear]
      exact .start q sooner later hin honly hq

/-- A side of an orderly view has taken some signals off its inbox and become another. -/
theorem note (h : v.Orderly mode r fifo) {q : Role} {σ : Side} {signals : List Signal}
    {signs : List Sign} (hsub : signals.Sublist (v.inbox q)) (hlike : (v.side q).Like σ)
    (hasleep : ¬v.started q → .start ∉ signs → σ.isRunning = false)
    (hrun : .run ∉ signs.filterMap Sign.signal?) (hdone : .start ∈ signs → .run ∉ signals)
    (hfirst : fifo → ¬v.started q → .start ∉ signs → ∃ later, signals = .run :: later) :
    ((v.setInbox q signals).note q σ signs).Orderly mode r fifo where
  role p := by
    rcases p.eq_or_eq_peer q with rfl | rfl
    · rw [side_note_self, hlike.role, h.role]
    · rw [side_note_peer, side_setInbox, h.role]
  mode p := by
    rcases p.eq_or_eq_peer q with rfl | rfl
    · rw [side_note_self, hlike.mode, h.mode]
    · rw [side_note_peer, side_setInbox, h.mode]
  asked := List.mem_append_left _ h.asked
  asleep p hp := by
    rcases p.eq_or_eq_peer q with rfl | rfl
    · rw [started_note_self, started_setInbox, not_or] at hp
      rw [side_note_self]
      exact hasleep hp.1 hp.2
    · rw [started_note_peer, started_setInbox] at hp
      rw [side_note_peer]
      exact h.asleep _ hp
  once p := by
    rcases p.eq_or_eq_peer q with rfl | rfl
    · rw [inbox_note_self, inbox_setInbox_self]
      exact Nat.le_trans (hsub.count_le .run) (h.once p)
    · rw [inbox_note_peer, inbox_setInbox_peer, List.count_append, List.count_eq_zero.mpr hrun]
      exact h.once _
  done p hp := by
    rcases p.eq_or_eq_peer q with rfl | rfl
    · rw [started_note_self, started_setInbox] at hp
      rw [inbox_note_self, inbox_setInbox_self]
      exact hp.elim (fun hp hmem => h.done p hp (hsub.subset hmem)) hdone
    · rw [started_note_peer, started_setInbox] at hp
      rw [inbox_note_peer, inbox_setInbox_peer, List.mem_append, not_or]
      exact ⟨h.done _ hp, hrun⟩
  first hf p hp := by
    rcases p.eq_or_eq_peer q with rfl | rfl
    · rw [started_note_self, started_setInbox, not_or] at hp
      rw [inbox_note_self, inbox_setInbox_self]
      exact hfirst hf hp.1 hp.2
    · rw [started_note_peer, started_setInbox] at hp
      obtain ⟨later, hlater⟩ := h.first hf _ hp
      rw [inbox_note_peer, inbox_setInbox_peer, hlater]
      exact ⟨later ++ _, rfl⟩

/-- An event keeps the sides in order. -/
theorem step (h : v.Orderly mode r fifo) (he : v.Event strict fifo v') :
    v'.Orderly mode r fifo := by
  cases he with
  | act q a hq ha =>
    rw [act_eq]
    exact h.note (List.Sublist.refl _) ((v.side q).like_after a) (fun hn => absurd hq hn)
      ((v.side q).run_not_mem_signals a) (fun hs => absurd hs ((v.side q).start_not_mem_signs a))
      fun _ hn => absurd hq hn
  | start q sooner later hin hrun hq =>
    exact h.note (by simp [hin]) ⟨rfl, rfl, rfl⟩ (fun _ hs => absurd List.mem_cons_self hs)
      (by simp [Sign.signal?]) (fun _ => hrun) fun _ _ hs => absurd List.mem_cons_self hs
  | release q sooner later hin hq =>
    exact h.note (by simp [hin]) ⟨rfl, rfl, rfl⟩ (fun hn _ => h.asleep q hn) (by simp) nofun
      fun hf hn => absurd (hq hf) hn
  | peerEnd q sooner later hin hq =>
    refine h.note (by simp [hin]) (v.side q).like_peerEnded (fun hn _ => ?_)
      (by simp [Sign.signal?]) (by simp) fun hf hn => absurd (hq hf) hn
    by_contra hr
    rw [Bool.not_eq_false] at hr
    exact hn (h.started_of_isRunning (Side.running_of_peerEnded hr).1)
  | lose q s sooner later hin hf =>
    have hsub : (sooner ++ later).Sublist (v.inbox q) := by simp [hin]
    rw [← (v.setInbox q (sooner ++ later)).note_self q]
    exact h.note hsub ⟨rfl, rfl, rfl⟩ (fun hn _ => h.asleep q hn) (by simp) nofun
      fun hf' => absurd hf' hf

end Orderly

end View

end Tandem
