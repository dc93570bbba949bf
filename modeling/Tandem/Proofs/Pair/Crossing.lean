import Tandem.Proofs.Pair.Mail
import Tandem.Proofs.Pair.Moves
import Tandem.Proofs.Run.Aside

/-!
# Requests that cross

Both devices may ask for a run before either has heard of the other's request. Each of them then
starts its own run at once, and the request of the other one is still on its way. A device that is
in its run when it gets there lets it pass, but a device whose run is over by then starts a second
one : how often a device starts depends on nothing else (`Duet.starts_of_crossing`).

No move but the delivery of a request starts a run, and no move sends another request
(`Duet.move_of_no_request`). So there is one request on its way to each device, and one delivery of
it (`Duet.move_of_request`).
-/

namespace Tandem

namespace Watch

theorem ofCall_startWatch (call : Call) : startWatch.ofCall call = [] := by
  cases call <;> rfl

theorem ofCall_askWatch (call : Call) : askWatch.ofCall call = [] := by
  cases call <;> rfl

end Watch

namespace Session

variable {α : Type} [Avatar α] {s : Session α}

/-- Nothing but the request of a run starts a run, or asks for one. -/
theorem seen_calls (hs : s.lend.Sound) (call : Call) :
    (s.lend.serve call).seen startWatch = [] ∧ (s.lend.serve call).seen askWatch = [] := by
  rw [Turn.seen_serve hs Watch.skipsActs_startWatch, Turn.seen_serve hs Watch.skipsActs_askWatch,
    Watch.ofCall_startWatch, Watch.ofCall_askWatch]
  exact ⟨rfl, rfl⟩

/-- A message starts a run if it asks for one and none is in progress. -/
theorem seen_receiving (hl : s.store.isLoaded = true) (hs : s.lend.Sound) (m : Message) :
    (s.receiving m).seen startWatch = (if m = .run ∧ s.isRunning = false then [()] else []) ∧
      (s.receiving m).seen askWatch = [] := by
  cases m with
  | command name args => exact seen_calls hs (.command name args)
  | unlock => exact seen_calls hs .release
  | finish => exact seen_calls hs .peerEnd
  | run =>
    rw [receiving, if_pos hl]
    cases hr : s.isRunning with
    | false =>
      have hr : s.lend.exec.isRunning = false := hr
      rw [Turn.seen_run hr Watch.skipsActs_startWatch, Turn.seen_run hr Watch.skipsActs_askWatch]
      exact ⟨rfl, rfl⟩
    | true =>
      have hrun : s.lend.run = (s.lend.record .runRejected, false) := if_pos hr
      rw [hrun, Turn.seen_record, Turn.seen_record]
      exact ⟨rfl, rfl⟩

/-- A session that is in no run asks the other one for a run, and starts one. -/
theorem seen_asking (hl : s.store.isLoaded = true) (hr : s.isRunning = false) :
    s.asking.seen startWatch = [()] ∧ s.asking.seen askWatch = [()] := by
  have hstart : s.lend.startTogether = (s.lend.send .run).run := if_neg (Bool.eq_false_iff.mp hr)
  have hsend : (s.lend.send .run).exec.isRunning = false := hr
  rw [asking, if_pos hl, hstart, Turn.seen_run hsend Watch.skipsActs_startWatch,
    Turn.seen_run hsend Watch.skipsActs_askWatch, Turn.seen_send, Turn.seen_send]
  exact ⟨rfl, rfl⟩

end Session

namespace Duet

variable {α : Type}

/-! ## Starts and requests -/

/-- How often the device has started a run. -/
def starts (d : Duet α) (q : Role) : Nat :=
  d.history.countP fun entry => entry.1 = q && (startWatch.see entry.2).isSome

/-- How many requests for a run are on their way to the device. -/
def requests (d : Duet α) (q : Role) : Nat :=
  (d.inbox q).count .run

/-- Only the device that has acted may have started a run. -/
theorem starts_after (d : Duet α) (r : Role) (t : Turn α) (q : Role) :
    (d.after r t).starts q = d.starts q + if q = r then (t.seen startWatch).length else 0 := by
  rw [starts, after, List.countP_append, List.countP_map, ← starts, Turn.seen,
    List.length_filterMap_eq_countP]
  split
  · next h => simp [h, Function.comp_def]
  · next h => simp [Ne.symm h, Function.comp_def]

/-- A device sends as many requests as it makes. -/
theorem count_run_messages (s : Session α) (t : Turn α) :
    (s.after t).messages.count .run = (t.seen askWatch).length := by
  have hsee : ∀ deed, askWatch.see deed =
      (messageWatch.see deed).bind fun m => if m = .run then some () else none := by
    intro deed
    rcases deed with _ | _ | ⟨_ | m | _ | _ | _⟩
    all_goals first | rfl | (cases m <;> rfl)
  rw [Session.messages_after, Turn.seen, Turn.seen, Watch.filterMap_see hsee,
    List.length_filterMap_eq_countP, List.count]
  refine List.countP_congr fun m _ => ?_
  cases m <;> simp

/-- What a device asks for reaches the other one. -/
theorem requests_after (d : Duet α) (r : Role) (t : Turn α) (q : Role) : (d.after r t).requests q =
    d.requests q + if q = r.peer then (t.seen askWatch).length else 0 := by
  unfold requests after
  split
  · next h => simp only [h, Function.update_self, List.count_append, count_run_messages]
  · next h => simp only [Function.update_of_ne h, Nat.add_zero]

/-! ## One move -/

/-- The move is the delivery of a request for a run to the device. -/
def deliversRequest (d : Duet α) (q : Role) : Move → Bool
  | .deliver r place => r = q && (d.inbox q)[place]? = some .run
  | _ => false

/-- A message is taken off the inbox that it is in. -/
theorem requests_take {d : Duet α} {r : Role} {m : Message} (hm : (d.inbox r)[0]? = some m)
    (q : Role) :
    (d.take r 0).requests q + (if r = q ∧ m = .run then 1 else 0) = d.requests q := by
  obtain rfl | hq := eq_or_ne r q
  · obtain ⟨rest, hin⟩ : ∃ rest, d.inbox r = m :: rest := by
      cases hin : d.inbox r with
      | nil =>
        rw [hin] at hm
        cases hm
      | cons m' rest =>
        rw [hin] at hm
        obtain rfl := Option.some.inj hm
        exact ⟨rest, rfl⟩
    simp only [requests, take, Function.update_self, hin, List.eraseIdx_cons_zero, List.count_cons,
      true_and, beq_iff_eq]
  · rw [if_neg fun h => hq h.1, Nat.add_zero]
    simp only [requests, take, Function.update_of_ne (Ne.symm hq)]

variable [Avatar α] {d : Duet α}

/-- A move that delivers no request to a device makes it start no run, and sends it no request. -/
theorem move_of_no_request (hs : d.Sound) {m : Move} (hm : m.inOrder) {q : Role}
    (h : d.deliversRequest q m = false) :
    (d.move m).starts q = d.starts q ∧ (d.move m).requests q = d.requests q := by
  have hquiet : ∀ (d' : Duet α) (r : Role) (t : Turn α),
    t.seen startWatch = [] ∧ t.seen askWatch = [] →
      (d'.after r t).starts q = d'.starts q ∧ (d'.after r t).requests q = d'.requests q := by
    intro d' r t ht
    rw [starts_after, requests_after, ht.1, ht.2, List.length_nil, ite_self, ite_self]
    exact ⟨rfl, rfl⟩
  cases m with
  | update r dt =>
    have hturn : (d.session r).updating dt = (d.session r).lend.update dt := if_pos (hs r).1
    rw [move, hturn]
    exact hquiet d r _ (Session.seen_calls (hs r).2 (.update dt))
  | interrupt r => exact hquiet d r _ (Session.seen_calls (hs r).2 .interrupt)
  | clearFlag r => exact hquiet d r _ (Session.seen_calls (hs r).2 .clearFlag)
  | lose => exact hm.elim
  | deliver r place =>
    obtain rfl : place = 0 := hm
    rw [move]
    cases hplace : (d.inbox r)[0]? with
    | none => exact ⟨rfl, rfl⟩
    | some m =>
      obtain ⟨hstart, hask⟩ := Session.seen_receiving (hs r).1 (hs r).2 m
      have hother : ¬(r = q ∧ m = .run) := by
        rintro ⟨rfl, rfl⟩
        simp [deliversRequest, hplace] at h
      have htake := requests_take hplace q
      rw [if_neg hother, Nat.add_zero] at htake
      have hnone : (if q = r then (((d.session r).receiving m).seen startWatch).length else 0) =
        0 := by
        rw [hstart]
        split
        · next hq => rw [if_neg fun hm => hother ⟨hq.symm, hm.1⟩, List.length_nil]
        · rfl
      rw [starts_after, requests_after, hask, hnone, htake, List.length_nil, ite_self]
      exact ⟨rfl, rfl⟩

/-- The delivery of a request to a device makes it start a run, unless it is in one. -/
theorem move_of_request (hs : d.Sound) {m : Move} (hm : m.inOrder) {q : Role}
    (h : d.deliversRequest q m = true) : (d.move m).requests q + 1 = d.requests q ∧
      (d.move m).starts q = d.starts q + if (d.session q).isRunning then 0 else 1 := by
  cases m with
  | update | interrupt | clearFlag | lose => cases h
  | deliver r place =>
    obtain rfl : place = 0 := hm
    obtain ⟨rfl, hplace⟩ : r = q ∧ (d.inbox q)[0]? = some .run := by
      simpa [deliversRequest] using h
    obtain ⟨hstart, hask⟩ := Session.seen_receiving (hs r).1 (hs r).2 .run
    have htake := requests_take hplace r
    rw [if_pos ⟨rfl, rfl⟩] at htake
    rw [move, hplace]
    dsimp only
    rw [starts_after, requests_after, if_neg r.peer_ne.symm, if_pos rfl, hstart]
    refine ⟨htake, congrArg (d.starts r + ·) ?_⟩
    cases (d.session r).isRunning <;> rfl

/-- The duet goes on being sound. -/
theorem Sound.move (hs : d.Sound) (m : Move) : (d.move m).Sound :=
  (@steps_move _ _ False d hs m nofun).2

/-! ## Many moves -/

/-- Among the moves, a request for a run gets to the device when it is in no run. -/
def overtaken (q : Role) : Duet α → List Move → Bool
  | _, [] => false
  | d, m :: ms => (d.deliversRequest q m && !(d.session q).isRunning) || overtaken q (d.move m) ms

/-- Where no request is on its way, no run is started. -/
theorem moves_of_no_request (hs : d.Sound) {ms : List Move} (hms : ∀ m ∈ ms, m.inOrder) {q : Role}
    (h : d.requests q = 0) : overtaken q d ms = false ∧ (d.moves ms).starts q = d.starts q ∧
      (d.moves ms).requests q = 0 := by
  induction ms generalizing d with
  | nil => exact ⟨rfl, rfl, h⟩
  | cons m ms ih =>
    obtain ⟨hm, hms⟩ := List.forall_mem_cons.mp hms
    have hnone : d.deliversRequest q m = false := by
      by_contra hd
      obtain ⟨hone, -⟩ := move_of_request hs hm (Bool.not_eq_false _ ▸ hd)
      omega
    obtain ⟨hstarts, hrequests⟩ := move_of_no_request hs hm hnone
    obtain ⟨hover, hstarts', hrequests'⟩ := ih (hs.move m) hms (hrequests.trans h)
    rw [overtaken, hnone, hover]
    exact ⟨rfl, hstarts'.trans hstarts, hrequests'⟩

/-- The one request that is on its way starts a run if the device is in none when it gets there. -/
theorem moves_of_one_request (hs : d.Sound) {ms : List Move} (hms : ∀ m ∈ ms, m.inOrder) {q : Role}
    (h : d.requests q = 1) : (d.moves ms).starts q =
      d.starts q + if overtaken q d ms then 1 else 0 := by
  induction ms generalizing d with
  | nil => rfl
  | cons m ms ih =>
    obtain ⟨hm, hms⟩ := List.forall_mem_cons.mp hms
    cases hd : d.deliversRequest q m with
    | false =>
      obtain ⟨hstarts, hrequests⟩ := move_of_no_request hs hm hd
      have hrest := ih (hs.move m) hms (hrequests.trans h)
      rw [overtaken, hd, Bool.false_and, Bool.false_or, ← hstarts]
      exact hrest
    | true =>
      obtain ⟨hone, hstarts⟩ := move_of_request hs hm hd
      have hnone : (d.move m).requests q = 0 := by omega
      obtain ⟨hover, hrest, -⟩ := moves_of_no_request (hs.move m) hms hnone
      rw [overtaken, hd, hover, Bool.true_and, Bool.or_false]
      refine hrest.trans (hstarts.trans (congrArg (d.starts q + ·) ?_))
      cases (d.session q).isRunning <;> rfl

/-! ## Both devices ask -/

/-- A device that is in no run asks for one. -/
theorem ask_of_not_running (hs : d.Sound) {r : Role} (hr : (d.session r).isRunning = false)
    (q : Role) :
    (d.ask r).starts q = d.starts q + (if q = r then 1 else 0) ∧
      (d.ask r).requests q = d.requests q + if q = r.peer then 1 else 0 := by
  obtain ⟨hstart, hask⟩ := Session.seen_asking (hs r).1 hr
  rw [ask, starts_after, requests_after, hstart, hask]
  exact ⟨rfl, rfl⟩

/-- To ask for a run keeps the two devices sound. -/
theorem Sound.ask (hs : d.Sound) {r : Role} (hr : (d.session r).isRunning = false) :
    (d.ask r).Sound := by
  have hstart : (d.session r).lend.startTogether = ((d.session r).lend.send .run).run :=
    if_neg (Bool.eq_false_iff.mp hr)
  have hturn : (d.session r).asking = ((d.session r).lend.send .run).run.1 := by
    rw [Session.asking, if_pos (hs r).1, hstart]
  have hsend : ((d.session r).lend.send .run).exec.isRunning = false := hr
  rw [Duet.ask, hturn]
  exact hs.after r (Turn.sound_run hsend).1

omit [Avatar α] in
/-- What one device does leaves the session of the other one alone. -/
theorem session_after_peer (d : Duet α) {r q : Role} (h : q ≠ r) (t : Turn α) :
    (d.after r t).session q = d.session q :=
  Function.update_of_ne h _ _

omit [Avatar α] in
theorem isRunning_after (d : Duet α) (r : Role) (t : Turn α) :
    ((d.after r t).session r).isRunning = t.exec.isRunning := by
  simp only [after, Function.update_self]
  rfl

/-- A device that is in no run stays so until something is delivered to it. -/
theorem not_running_move {m : Move} {q : Role} (hq : (d.session q).isRunning = false)
    (hm : ∀ place, m ≠ .deliver q place) : ((d.move m).session q).isRunning = false := by
  have hnot : ¬(d.session q).lend.exec.isRunning = true := Bool.eq_false_iff.mp hq
  cases m with
  | update r dt =>
    obtain rfl | hr := eq_or_ne q r
    · have hstill : (d.session q).lend.update dt = (d.session q).lend := by
        rw [Turn.update, Bool.eq_false_iff.mpr hnot]
        rfl
      have hturn : (d.session q).updating dt = (d.session q).lend := by
        rw [Session.updating, hstill, ite_self]
      rw [move, isRunning_after, hturn]
      exact hq
    · rw [move, session_after_peer d hr]
      exact hq
  | interrupt r =>
    obtain rfl | hr := eq_or_ne q r
    · rw [move, isRunning_after, Turn.interrupt, if_neg hnot]
      exact hq
    · rw [move, session_after_peer d hr]
      exact hq
  | clearFlag r =>
    obtain rfl | hr := eq_or_ne q r
    · rw [move, isRunning_after]
      exact hq
    · rw [move, session_after_peer d hr]
      exact hq
  | lose => exact hq
  | deliver r place =>
    have hr : q ≠ r := fun h => hm place (h ▸ rfl)
    rw [move]
    split
    · rw [session_after_peer _ hr]
      exact hq
    · exact hq

/-- While nothing is delivered to a device that is in no run, it starts none, and what is on its way
to it stays there. -/
theorem moves_of_no_delivery (hs : d.Sound) {ms : List Move} {q : Role}
    (hms : ∀ m ∈ ms, m.inOrder ∧ ∀ place, m ≠ .deliver q place)
    (hq : (d.session q).isRunning = false) : (d.moves ms).Sound ∧
      ((d.moves ms).session q).isRunning = false ∧ (d.moves ms).starts q = d.starts q ∧
      (d.moves ms).requests q = d.requests q := by
  induction ms generalizing d with
  | nil => exact ⟨hs, hq, rfl, rfl⟩
  | cons m ms ih =>
    obtain ⟨⟨hm, hplace⟩, hms⟩ := List.forall_mem_cons.mp hms
    have hnone : d.deliversRequest q m = false := by
      cases m with
      | deliver r place =>
        have hr : r ≠ q := fun h => hplace place (h ▸ rfl)
        simp [deliversRequest, hr]
      | update | interrupt | clearFlag | lose => rfl
    obtain ⟨hstarts, hrequests⟩ := move_of_no_request hs hm hnone
    obtain ⟨hs', hq', hstarts', hrequests'⟩ := ih (hs.move m) hms (not_running_move hq hplace)
    exact ⟨hs', hq', hstarts'.trans hstarts, hrequests'.trans hrequests⟩

/-- Both devices ask for a run, and neither has heard of the other's request when it does. Each
starts its own run, and one more if that is over when the request of the other one gets there. -/
theorem starts_of_crossing {mode : SyncMode} (hd : d.Ready mode) (r : Role) {early ms : List Move}
    (hearly : ∀ m ∈ early, m.inOrder ∧ ∀ place, m ≠ .deliver r.peer place)
    (hms : ∀ m ∈ ms, m.inOrder) :
    let d' := ((d.ask r).moves early).ask r.peer
    ∀ q, (d'.moves ms).starts q = if overtaken q d' ms then 2 else 1 := by
  intro d' q
  have hidle : ∀ q, (d.session q).isRunning = false := hd.isRunning
  have hstarts : ∀ q, d.starts q = 0 := fun q => by rw [starts, hd.fresh, List.countP_nil]
  have hrequests : ∀ q, d.requests q = 0 := fun q => by rw [requests, hd.quiet, List.count_nil]
  -- The first request waits for the other device, and nothing is on its way to this one.
  have hsound := hd.sound.ask (hidle r)
  obtain ⟨hown, hin⟩ := ask_of_not_running hd.sound (hidle r) r
  obtain ⟨hpeer, hout⟩ := ask_of_not_running hd.sound (hidle r) r.peer
  rw [if_pos rfl, hstarts] at hown
  rw [if_neg r.peer_ne.symm, hrequests] at hin
  rw [if_neg r.peer_ne, hstarts] at hpeer
  rw [if_pos rfl, hrequests] at hout
  have hwait : ((d.ask r).session r.peer).isRunning = false := by
    rw [ask, session_after_peer d r.peer_ne]
    exact hidle r.peer
  obtain ⟨hsound', hwait', hpeer', hout'⟩ := moves_of_no_delivery hsound hearly hwait
  obtain ⟨-, hown', hin'⟩ := moves_of_no_request hsound (fun m hm => (hearly m hm).1) hin
  -- So does the second one.
  have hcrossed : d'.starts q = 1 ∧ d'.requests q = 1 := by
    obtain ⟨hstart, hrequest⟩ := ask_of_not_running hsound' hwait' q
    rw [hstart, hrequest]
    obtain rfl | rfl := q.eq_or_eq_peer r
    · rw [hown', hin', hown, if_neg q.peer_ne.symm, Role.peer_peer, if_pos rfl]
      exact ⟨rfl, rfl⟩
    · rw [hpeer', hout', hpeer, hout, if_pos rfl, Role.peer_peer, if_neg r.peer_ne]
      exact ⟨rfl, rfl⟩
  have hcount := moves_of_one_request (hsound'.ask hwait') hms hcrossed.2
  rw [hcrossed.1] at hcount
  refine hcount.trans ?_
  cases overtaken q d' ms <;> rfl

/-- Two devices that do not wait for each other. The slave has made its only command at once, and
the master is in no hurry. -/
def unequal : Duet GridAvatar :=
  onGrid .async fun
    | .master => ⟨[.ofName "Continue_Sec" ["0.5"], .ofName "MOVE" ["EAST"]]⟩
    | .slave => ⟨[.ofName "MOVE" ["EAST"]]⟩

/-- Each request gets to the other device. -/
def bothRequests : List Move :=
  [.deliver .slave 0, .deliver .master 0]

theorem inOrder_bothRequests : ∀ m ∈ bothRequests, m.inOrder := by
  intro m hm
  simp only [bothRequests, List.mem_cons, List.not_mem_nil, or_false] at hm
  obtain rfl | rfl := hm <;> rfl

/-- The slave starts twice, the master once. -/
theorem starts_of_unequal_crossing :
    (((unequal.ask .master).ask .slave).moves bothRequests).starts .slave = 2 ∧
    (((unequal.ask .master).ask .slave).moves bothRequests).starts .master = 1 := by
  have hstarts := starts_of_crossing (ready_onGrid .async _ : unequal.Ready _) .master
    (List.forall_mem_nil _) inOrder_bothRequests
  exact ⟨(hstarts .slave).trans (by decide +kernel), (hstarts .master).trans (by decide +kernel)⟩

/-- A request that gets to a device after its run is over makes it execute its script again. -/
theorem second_run_of_crossing :
    unequal.Ready .async ∧
    ¬∀ ms : List Move, (∀ m ∈ ms, m.inOrder) →
      ∀ q, (((unequal.ask .master).ask .slave).moves ms).starts q = 1 := by
  refine ⟨ready_onGrid .async _, fun hall => ?_⟩
  have hone := hall bothRequests inOrder_bothRequests .slave
  exact absurd hone (by decide +kernel)

end Duet

end Tandem
