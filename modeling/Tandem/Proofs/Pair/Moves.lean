import Tandem.Proofs.Pair.Duet
import Tandem.Proofs.Pair.View

/-!
# Moves of a duet as steps of its view

A duet has a view (`Duet.view`). A move of the duet is a number of steps of the view
(`Duet.steps_move`), in order if the move is. So what holds when a run has been asked for, and is
preserved by every step of a view, holds of the duet ever after (`Duet.view_induction`).
-/

namespace Tandem

open Relation

namespace Duet

variable {α : Type}

/-- The signs in the history. -/
def signs (d : Duet α) : List (Role × Sign) :=
  d.history.filterMap fun deed => deed.2.sign?.map fun sign => (deed.1, sign)

/-- The device has started a run. -/
def HasStarted (d : Duet α) (q : Role) : Prop :=
  (q, Sign.start) ∈ d.signs

instance (d : Duet α) (q : Role) : Decidable (d.HasStarted q) :=
  inferInstanceAs (Decidable (_ ∈ _))

/-- The number of ticks of the device that take part in the synchronisation. -/
def lockTicks (d : Duet α) (q : Role) : Nat :=
  (signsOf q d.signs).count .tick

/-- The number of times that the device has waited for too long. -/
def timeouts (d : Duet α) (q : Role) : Nat :=
  (signsOf q d.signs).count .timeout

/-- What the synchronisation knows of the duet. -/
def view (d : Duet α) : View where
  side r := (d.session r).lend.side
  inbox r := (d.inbox r).filterMap Message.signal?
  history := d.signs

/-- The signals that are on their way are those of the messages. -/
theorem inbox_view (d : Duet α) (r : Role) :
    d.view.inbox r = (d.inbox r).filterMap Message.signal? := rfl

variable [Avatar α]

/-- Both sessions are loaded, and in states that runs can come to. -/
def Sound (d : Duet α) : Prop :=
  ∀ r, (d.session r).store.isLoaded = true ∧ (d.session r).lend.Sound

omit [Avatar α] in
/-- A turn of one device changes the side of that device only. -/
theorem side_session_after (d : Duet α) (r : Role) (t : Turn α)
    (hl : (d.session r).store.isLoaded = true) (q : Role) :
    ((d.after r t).session q).lend.side =
      Function.update (fun q => (d.session q).lend.side) r t.side q := by
  rcases q.eq_or_eq_peer r with rfl | rfl
  · simp only [after, Function.update_self, Session.lend_after hl]
    rfl
  · simp only [after, Function.update_of_ne r.peer_ne]

omit [Avatar α] in
/-- The signals among the messages sent are those among the signs. -/
theorem signals_messages (s : Session α) (t : Turn α) :
    (s.after t).messages.filterMap Message.signal? =
      (t.seen signWatch).filterMap Sign.signal? := by
  have h : ∀ deed : Deed, (deed.effect?.bind fun e => e.message?.bind Message.signal?) =
      (signWatch.see deed).bind Sign.signal? := by
    intro deed
    rcases deed with ⟨t, kind, age⟩ | e | e
    · cases h : kind.lock <;> simp [Deed.effect?, signWatch, Deed.sign?, h, Sign.signal?]
    · cases e <;> rfl
    · rcases e with _ | m | _ | _ | _
      · rfl
      · cases m <;> rfl
      · rfl
      · rfl
      · rfl
  rw [SessionTurn.messages, Session.after, Turn.effects, Array.toList_filterMap, Turn.seen,
    List.filterMap_filterMap, List.filterMap_filterMap, List.filterMap_filterMap]
  exact congrArg (List.filterMap · t.deeds.toList) (funext h)

omit [Avatar α] in
/-- The work of a session is noted in the view. -/
theorem view_after (d : Duet α) (r : Role) (t : Turn α)
    (hl : (d.session r).store.isLoaded = true) :
    (d.after r t).view = d.view.note r t.side (t.seen signWatch) := by
  have hside := funext (d.side_session_after r t hl)
  have hinbox : (fun q => ((d.after r t).inbox q).filterMap Message.signal?) =
      (d.view.note r t.side (t.seen signWatch)).inbox := by
    funext q
    rcases q.eq_or_eq_peer r with rfl | rfl
    · simp [after, view, q.peer_ne.symm]
    · simp [after, view, signals_messages]
  have hsigns : (d.after r t).signs = (d.view.note r t.side (t.seen signWatch)).history := by
    rw [View.history_note, signs, after, List.filterMap_append, List.filterMap_map, Turn.seen,
      List.map_filterMap]
    rfl
  rw [view, hside, hinbox, hsigns]
  rfl

/-! ## Moves are steps -/

/-- A sound turn keeps the two devices sound. -/
theorem Sound.after {d : Duet α} (hs : d.Sound) (r : Role) {t : Turn α} (ht : t.Sound) :
    (d.after r t).Sound := by
  intro q
  rcases q.eq_or_eq_peer r with rfl | rfl
  · simp only [Duet.after, Function.update_self, Session.isLoaded_after,
      Session.lend_after (hs q).1]
    exact ⟨(hs q).1, ht.waits, ht.runs, ht.free⟩
  · simp only [Duet.after, Function.update_of_ne r.peer_ne]
    exact hs r.peer

variable {fifo : Prop}

/-- A session that goes through acts takes the view through as many steps. -/
theorem steps_goes {d : Duet α} (hs : d.Sound) {r : Role} {t : Turn α} {acts : List (Side × Act)}
    (hg : Turn.Goes (d.session r).lend t acts) :
    ReflTransGen (View.Step (Avatar.Steady α) fifo) d.view (d.after r t).view ∧
      (d.after r t).Sound := by
  have hseen : t.seen signWatch = signWatch.ofCourse acts := by
    rw [hg.seen _ alike_signWatch]
    rfl
  rw [view_after d r t (hs r).1, hseen]
  exact ⟨View.steps_course hg.course rfl, hs.after r hg.sound⟩

omit [Avatar α] in
/-- A message that is taken is on its way no more. -/
theorem view_take (d : Duet α) (r : Role) (place : Nat) : (d.take r place).view =
    d.view.setInbox r (((d.inbox r).eraseIdx place).filterMap Message.signal?) := by
  have hinbox : (fun q => ((d.take r place).inbox q).filterMap Message.signal?) =
      (d.view.setInbox r (((d.inbox r).eraseIdx place).filterMap Message.signal?)).inbox := by
    funext q
    rcases q.eq_or_eq_peer r with rfl | rfl
    · simp [take]
    · simp [take, view, r.peer_ne]
  rw [view, hinbox]
  rfl

omit [Avatar α] in
/-- The message at a place stands between those sent before and those sent after it. -/
theorem inbox_split {d : Duet α} {r : Role} {place : Nat} {m : Message}
    (hm : (d.inbox r)[place]? = some m) : ∃ sooner later, d.inbox r = sooner ++ m :: later ∧
      (d.inbox r).eraseIdx place = sooner ++ later ∧ (place = 0 → sooner = []) := by
  obtain ⟨h, rfl⟩ := List.getElem?_eq_some_iff.mp hm
  refine ⟨(d.inbox r).take place, (d.inbox r).drop (place + 1), ?_,
    List.eraseIdx_eq_take_drop_succ .., fun h0 => by rw [h0, List.take_zero]⟩
  rw [← List.drop_eq_getElem_cons h, List.take_append_drop]

omit [Avatar α] in
/-- A command on its way is nothing to the view. -/
theorem view_take_of_none {d : Duet α} {r : Role} {place : Nat} {m : Message}
    (hm : (d.inbox r)[place]? = some m) (hs : m.signal? = none) :
    (d.take r place).view = d.view := by
  obtain ⟨sooner, later, hin, hrest, -⟩ := inbox_split hm
  have hsame : ((d.inbox r).eraseIdx place).filterMap Message.signal? = d.view.inbox r := by
    rw [hrest, inbox_view, hin, List.filterMap_append, List.filterMap_append,
      List.filterMap_cons_none hs]
  rw [view_take, hsame]
  exact View.setInbox_self _ r

omit [Avatar α] in
/-- A signal on its way is on its way in the view. -/
theorem view_take_of_some {d : Duet α} {r : Role} {place : Nat} {m : Message} {s : Signal}
    (hm : (d.inbox r)[place]? = some m) (hs : m.signal? = some s) :
    ∃ sooner later, d.view.inbox r = sooner ++ s :: later ∧
      (d.take r place).view = d.view.setInbox r (sooner ++ later) ∧
      (place = 0 → sooner = []) := by
  obtain ⟨sooner, later, hin, hrest, hfirst⟩ := inbox_split hm
  refine ⟨sooner.filterMap Message.signal?, later.filterMap Message.signal?, ?_, ?_, fun h0 => ?_⟩
  · rw [inbox_view, hin, List.filterMap_append, List.filterMap_cons_some hs]
  · rw [view_take, hrest, List.filterMap_append]
  · rw [hfirst h0, List.filterMap_nil]

/-- A session that takes in a message hears the signal, if it is one, and then goes through
acts. -/
theorem goes_receiving {s : Session α} (hl : s.store.isLoaded = true) (hs : s.lend.Sound)
    {m : Message} {signal : Signal} (hm : m.signal? = some signal) :
    ∃ (t₀ : Turn α) (acts : List (Side × Act)), t₀.side = s.lend.side.hear signal ∧
      t₀.seen signWatch = s.lend.side.hearSigns signal ∧ Turn.Goes t₀ (s.receiving m) acts := by
  cases m with
  | command => cases hm
  | unlock =>
    cases hm
    exact ⟨_, [], rfl, s.lend.seen_afterRelease signWatch,
      .still rfl (fun _ => rfl) (Turn.sound_afterRelease hs)⟩
  | finish =>
    cases hm
    refine ⟨_, [], s.lend.side_afterPeerEnd, ?_, .still rfl (fun _ => rfl)
      (Turn.sound_afterPeerEnd hs)⟩
    refine (s.lend.seen_afterPeerEnd signWatch).trans ?_
    cases s.lend.side.due <;> rfl
  | run =>
    cases hm
    rw [Session.receiving, if_pos hl]
    cases hr : s.lend.side.isRunning with
    | false =>
      obtain ⟨acts, -, hg⟩ := Turn.goes_run hr
      refine ⟨_, acts, ?_, ?_, hg⟩
      · rw [Turn.side_begin, Side.hear, hr]
        rfl
      · rw [Turn.seen_begin, Side.hearSigns, hr]
        cases s.lend.exec.cleanupDue <;> rfl
    | true =>
      have hrun : s.lend.run = (s.lend.record .runRejected, false) := if_pos hr
      rw [hrun]
      refine ⟨_, [], ?_, ?_, .still rfl (fun _ => rfl) ⟨hs.waits, hs.runs, hs.free⟩⟩
      · rw [Side.hear, if_pos hr]
        rfl
      · rw [Turn.seen_record, Side.hearSigns, if_pos hr]
        rfl

/-- A delivery is a step in which the signal is heard, and the steps of what is done then. -/
theorem steps_deliver {d : Duet α} (hs : d.Sound) {r : Role} {place : Nat} {m : Message}
    (hm : (d.inbox r)[place]? = some m) (hfirst : fifo → place = 0) :
    ReflTransGen (View.Step (Avatar.Steady α) fifo) d.view
        ((d.take r place).after r ((d.session r).receiving m)).view ∧
      ((d.take r place).after r ((d.session r).receiving m)).Sound := by
  obtain ⟨hl, ht⟩ := hs r
  have htake : (d.take r place).Sound := hs
  cases hsig : m.signal? with
  | none =>
    cases m with
    | command name args =>
      have hseen : ((d.session r).receiving (.command name args)).seen signWatch = [] :=
        (d.session r).lend.seen_dispatch signWatch name args true alike_signWatch
      have hside : ((d.session r).receiving (.command name args)).side = d.view.side r :=
        (d.session r).lend.side_dispatch name args true
      rw [view_after _ _ _ (htake r).1, view_take_of_none hm hsig, hseen, hside, View.note_self]
      exact ⟨.refl, htake.after r (Turn.sound_dispatch ht name args true)⟩
    | run | unlock | finish => cases hsig
  | some signal =>
    obtain ⟨t₀, acts, hside, hseen, hg⟩ := goes_receiving hl ht hsig
    obtain ⟨sooner, later, hin, hview, hsooner⟩ := view_take_of_some hm hsig
    have hstep : View.Step (Avatar.Steady α) fifo d.view
        ((d.view.setInbox r (sooner ++ later)).hear r signal) :=
      .hear r signal sooner later hin fun hf => hsooner (hfirst hf)
    have hcourse : ReflTransGen (View.Step (Avatar.Steady α) fifo)
        ((d.view.setInbox r (sooner ++ later)).hear r signal)
        (((d.view.setInbox r (sooner ++ later)).hear r signal).note r
          ((d.session r).receiving m).side (signWatch.ofCourse acts)) :=
      View.steps_course hg.course ((View.side_note_self ..).trans hside.symm)
    rw [View.hear, View.note_note] at hcourse
    rw [view_after _ _ _ (htake r).1, hview, hg.seen _ alike_signWatch, hseen]
    exact ⟨.head hstep hcourse, htake.after r hg.sound⟩

/-- Every move is a number of steps of the view, in order if the move is. -/
theorem steps_move {d : Duet α} (hs : d.Sound) (m : Move) (hm : fifo → m.inOrder) :
    ReflTransGen (View.Step (Avatar.Steady α) fifo) d.view (d.move m).view ∧
      (d.move m).Sound := by
  cases m with
  | update r dt =>
    obtain ⟨hl, ht⟩ := hs r
    obtain ⟨acts, hg⟩ := Turn.goes_update ht dt
    have hu : (d.session r).updating dt = (d.session r).lend.update dt := if_pos hl
    rw [move, hu]
    exact steps_goes hs hg
  | interrupt r =>
    obtain ⟨acts, hg⟩ := Turn.goes_interrupt (hs r).2
    exact steps_goes hs hg
  | clearFlag r =>
    obtain ⟨-, ht⟩ := hs r
    have hg : Turn.Goes (d.session r).lend ((d.session r).lend.mapExec Executor.clearFlag) [] :=
      .still rfl (fun _ => rfl) ⟨ht.waits, ht.runs, ht.free⟩
    exact steps_goes hs hg
  | lose r place =>
    refine ⟨?_, hs⟩
    cases hplace : (d.inbox r)[place]? with
    | none =>
      have hrest : (d.inbox r).eraseIdx place = d.inbox r :=
        List.eraseIdx_of_length_le (List.getElem?_eq_none_iff.mp hplace)
      rw [move, view_take, hrest, ← inbox_view, View.setInbox_self]
    | some m =>
      cases hsig : m.signal? with
      | none => rw [move, view_take_of_none hplace hsig]
      | some signal =>
        obtain ⟨sooner, later, hin, hview, -⟩ := view_take_of_some hplace hsig
        rw [move, hview]
        exact .single (.lose r signal sooner later hin hm)
  | deliver r place =>
    rw [move]
    cases hplace : (d.inbox r)[place]? with
    | none => exact ⟨.refl, hs⟩
    | some m => exact steps_deliver hs hplace hm

/-- Moves of the two devices take the view through steps. -/
theorem steps_moves {d : Duet α} (hs : d.Sound) (ms : List Move)
    (hms : fifo → ∀ m ∈ ms, m.inOrder) :
    ReflTransGen (View.Step (Avatar.Steady α) fifo) d.view (d.moves ms).view := by
  induction ms generalizing d with
  | nil => exact .refl
  | cons m ms ih =>
    obtain ⟨hsteps, hsound⟩ := steps_move hs m fun hf => hms hf m List.mem_cons_self
    exact hsteps.trans (ih hsound fun hf m' hm' => hms hf m' (List.mem_cons_of_mem m hm'))

/-! ## From the start on -/

variable {mode : SyncMode}

omit [Avatar α] in
/-- Devices that are ready are in no run. -/
theorem Ready.isRunning {d : Duet α} (hd : d.Ready mode) (r : Role) :
    (d.session r).lend.side.isRunning = false := by
  have h : (d.session r).exec.phase = .idle := by simpa [Session.isIdle] using hd.idle r
  rw [Side.isRunning, show (d.session r).lend.side.phase = .idle from h]
  rfl

/-- Devices that are ready are sound. -/
theorem Ready.sound {d : Duet α} (hd : d.Ready mode) : d.Sound :=
  fun r => ⟨hd.loaded r, .of_not_running (hd.isRunning r)⟩

omit [Avatar α] in
/-- Devices that are ready are asked for a run by the one that starts. -/
theorem Ready.asked {d : Duet α} (hd : d.Ready mode) (r : Role) :
    (d.view.note r (d.view.side r).begun [.sent .run, .start]).Asked mode r where
  role q := by
    rcases q.eq_or_eq_peer r with rfl | rfl
    · rw [View.side_note_self]
      exact hd.role q
    · rw [View.side_note_peer]
      exact hd.role r.peer
  mode q := by
    rcases q.eq_or_eq_peer r with rfl | rfl
    · rw [View.side_note_self]
      exact hd.mode q
    · rw [View.side_note_peer]
      exact hd.mode r.peer
  begun := ⟨_, View.side_note_self ..⟩
  idle := by
    rw [View.side_note_peer]
    exact hd.isRunning r.peer
  own := by rw [View.inbox_note_self, inbox_view, hd.quiet, List.filterMap_nil]
  peer := by
    rw [View.inbox_note_peer, inbox_view, hd.quiet]
    rfl
  history := by
    rw [View.history_note, show d.view.history = d.signs from rfl, signs, hd.fresh]
    rfl

/-- When one device asks for a run, it has started and gone on by itself. -/
theorem steps_ask {d : Duet α} (hd : d.Ready mode) (r : Role) :
    ReflTransGen (View.Step (Avatar.Steady α) fifo)
        (d.view.note r (d.view.side r).begun [.sent .run, .start]) (d.ask r).view ∧
      (d.ask r).Sound := by
  have hidle := hd.isRunning r
  obtain ⟨acts, -, hg⟩ := Turn.goes_run (t := (d.session r).lend.send .run) hidle
  have hturn : (d.session r).asking = ((d.session r).lend.send .run).run.1 := by
    have h : (d.session r).lend.startTogether = ((d.session r).lend.send .run).run :=
      if_neg (Bool.eq_false_iff.mp hidle)
    rw [Session.asking, if_pos (hd.loaded r), h]
  have hbegin : ((d.session r).lend.send .run).begin.seen signWatch = [.sent .run, .start] := by
    rw [Turn.seen_begin]
    cases ((d.session r).lend.send .run).exec.cleanupDue <;> rfl
  have hside : (d.view.side r).begun = ((d.session r).lend.send .run).begin.side :=
    (Turn.side_begin ((d.session r).lend.send .run)).symm
  have hcourse : ReflTransGen (View.Step (Avatar.Steady α) fifo)
      (d.view.note r (d.view.side r).begun [.sent .run, .start]) _ :=
    View.steps_course hg.course ((View.side_note_self ..).trans hside)
  rw [View.note_note] at hcourse
  refine ⟨?_, ?_⟩
  · rw [ask, hturn, view_after d r _ (hd.loaded r), hg.seen _ alike_signWatch, hbegin]
    exact hcourse
  · rw [ask, hturn]
    exact hd.sound.after r hg.sound

/-- What holds once a run has been asked for, and is preserved by every step, holds ever after. -/
theorem view_induction {P : View → Prop} {d : Duet α} (hd : d.Ready mode) (r : Role)
    {ms : List Move} (hms : fifo → ∀ m ∈ ms, m.inOrder) (asked : ∀ v, v.Asked mode r → P v)
    (step : ∀ v v', P v → View.Step (Avatar.Steady α) fifo v v' → P v') :
    P ((d.ask r).moves ms).view := by
  obtain ⟨hsteps, hsound⟩ :
      ReflTransGen (View.Step (Avatar.Steady α) fifo) _ (d.ask r).view ∧ (d.ask r).Sound :=
    steps_ask hd r
  have hall : ∀ v', ReflTransGen (View.Step (Avatar.Steady α) fifo)
      (d.view.note r (d.view.side r).begun [.sent .run, .start]) v' → P v' := by
    intro v' h
    induction h with
    | refl => exact asked _ (hd.asked r)
    | tail _ hstep ih => exact step _ _ ih hstep
  exact hall _ (hsteps.trans (steps_moves hsound ms hms))

end Duet

end Tandem
