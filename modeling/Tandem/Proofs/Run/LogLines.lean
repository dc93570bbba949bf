import Tandem.Proofs.Run.Logbook

/-!
# What a log writes and what it keeps

In each update a log writes the lines of the first events, up to a fixed number, and then one
warning if there are more (`EventLog.mirrored`). It counts the events of the update in a word, so
this holds for updates with fewer events than a word can count (`EventLog.Written`). What it keeps
are the last events since they were taken, whatever it has written.

A log is asked for three things, in any order : to begin another update, to record an event, and to
hand over what it keeps. `EventLog.keeps_and_writes` says what it does for any sequence of such
requests.
-/

namespace Tandem

namespace EventLog

/-! ## Requests -/

/-- What is asked of a log. -/
inductive Request where
  | nextUpdate
  | record (e : RunEvent)
  /-- The events kept are taken. -/
  | drain
deriving DecidableEq

namespace Request

/-- The event that is to be recorded. -/
def event? : Request → Option RunEvent
  | record e => some e
  | _ => none

/-- The events kept are to be taken. -/
def isDrain : Request → Bool
  | drain => true
  | _ => false

end Request

/-- The log after a request. -/
def serve (l : EventLog) : Request → EventLog
  | .nextUpdate => l.nextUpdate
  | .record e => (l.record e).1
  | .drain => l.drain.2

/-- The lines that the log writes for a request. -/
def linesFor (l : EventLog) : Request → List LogLine
  | .record e => (l.record e).2
  | _ => []

/-- The log after the requests. -/
def serveAll (l : EventLog) (requests : List Request) : EventLog :=
  requests.foldl serve l

/-- The lines that the log writes for the requests. -/
def linesForAll : EventLog → List Request → List LogLine
  | _, [] => []
  | l, r :: requests => l.linesFor r ++ (l.serve r).linesForAll requests

/-- The events that the requests record. -/
def recorded (requests : List Request) : List RunEvent :=
  requests.filterMap Request.event?

theorem recorded_concat (requests : List Request) (r : Request) :
    recorded (requests ++ [r]) = recorded requests ++ r.event?.toList := by
  rw [recorded, List.filterMap_append]
  cases r <;> rfl

/-- The lines that are written for requests are those for the first ones and then those for the
others. -/
theorem linesForAll_append (qs rs : List Request) (l : EventLog) :
    l.linesForAll (qs ++ rs) = l.linesForAll qs ++ (l.serveAll qs).linesForAll rs := by
  induction qs generalizing l with
  | nil => rfl
  | cons q qs ih =>
    rw [List.cons_append, linesForAll, linesForAll, ih, List.append_assoc]
    rfl

theorem linesForAll_concat (r : Request) (requests : List Request) (l : EventLog) :
    l.linesForAll (requests ++ [r]) =
      l.linesForAll requests ++ (l.serveAll requests).linesFor r := by
  rw [linesForAll_append, linesForAll, linesForAll, List.append_nil]

theorem serveAll_concat (l : EventLog) (requests : List Request) (r : Request) :
    l.serveAll (requests ++ [r]) = (l.serveAll requests).serve r :=
  List.foldl_concat serve l r requests

/-! ## What is kept -/

/-- The events recorded since events were taken the last time. -/
def recordedSinceDrain (requests : List Request) : List RunEvent :=
  recorded (requests.rtakeWhile (!·.isDrain))

/-- A log keeps the events since it was drained, as far as its window goes. -/
theorem keeps_serveAll (source : String) (requests : List Request) :
    ((new source).serveAll requests).Keeps (recordedSinceDrain requests) := by
  induction requests using List.reverseRecOn with
  | nil => exact (List.rtake_nil _).symm
  | append_singleton requests r ih =>
    rw [serveAll_concat, recordedSinceDrain]
    cases r with
    | nextUpdate =>
      rw [List.rtakeWhile_concat_pos _ _ _ rfl, recorded_concat]
      exact (List.append_nil (recordedSinceDrain requests)).symm ▸ ih
    | record e =>
      rw [List.rtakeWhile_concat_pos _ _ _ rfl, recorded_concat]
      exact ih.record e
    | drain =>
      rw [List.rtakeWhile_concat_neg _ _ _ Bool.false_ne_true]
      exact (List.rtake_nil _).symm

/-! ## What is written -/

/-- The lines of the first events, and then the warning if there are more. -/
def mirrored (source : String) (es : List RunEvent) : List LogLine :=
  (es.take lineCap.toNat).map (fun e => (new source).line e.level e.sentence) ++
    if lineCap.toNat < es.length then [(new source).line .warn limitText] else []

/-- Up to the cap, each event is mirrored. -/
theorem mirrored_of_le {source : String} {es : List RunEvent} (h : es.length ≤ lineCap.toNat) :
    mirrored source es = es.map fun e => (new source).line e.level e.sentence := by
  rw [mirrored, List.take_of_length_le h, if_neg (Nat.not_lt.mpr h), List.append_nil]

/-- One more event is mirrored below the cap, warned of at the cap, and dropped behind it. -/
theorem mirrored_concat (source : String) (es : List RunEvent) (e : RunEvent) :
    mirrored source (es ++ [e]) = mirrored source es ++
      if es.length < lineCap.toNat then [(new source).line e.level e.sentence]
      else if es.length = lineCap.toNat then [(new source).line .warn limitText] else [] := by
  have hlength : (es ++ [e]).length = es.length + 1 := List.length_append
  obtain hlt | heq | hgt := Nat.lt_trichotomy es.length lineCap.toNat
  · rw [if_pos hlt, mirrored_of_le (by omega), mirrored_of_le hlt.le, List.map_append]
    rfl
  · rw [if_neg heq.not_lt, if_pos heq, mirrored_of_le heq.le, mirrored, hlength,
      List.take_append_of_le_length heq.ge, List.take_of_length_le heq.le, if_pos (by omega)]
  · rw [if_neg (Nat.lt_asymm hgt), if_neg hgt.ne', List.append_nil, mirrored, mirrored, hlength,
      List.take_append_of_le_length hgt.le, if_pos hgt, if_pos (by omega)]

/-- These are the events of the update so far, and these are the lines that the log has written for
them. -/
structure Written (source : String) (es : List RunEvent) (ls : List LogLine) (l : EventLog) :
    Prop where
  named : l.source = source
  counted : l.counted = UInt32.ofNat es.length
  warned : es.length < UInt32.size → l.warned = decide (lineCap.toNat < es.length)
  lines : es.length < UInt32.size → ls = mirrored source es

/-- When an update begins, nothing is written of it. -/
theorem written_nextUpdate {source : String} {l : EventLog} (h : l.source = source) :
    Written source [] [] l.nextUpdate :=
  ⟨h, rfl, fun _ => rfl, fun _ => rfl⟩

theorem source_record (l : EventLog) (e : RunEvent) : (l.record e).1.source = l.source := by
  unfold record
  dsimp only
  split
  · rfl
  · split <;> rfl

theorem counted_record (l : EventLog) (e : RunEvent) : (l.record e).1.counted = l.counted + 1 := by
  unfold record
  dsimp only
  split
  · rfl
  · split <;> rfl

/-- Another event is written as the next one of the update. -/
theorem Written.record {source : String} {es : List RunEvent} {ls : List LogLine} {l : EventLog}
    (h : Written source es ls l) (e : RunEvent) :
    Written source (es ++ [e]) (ls ++ (l.record e).2) (l.record e).1 := by
  have hlength : (es ++ [e]).length = es.length + 1 := List.length_append
  have hnext : l.counted + 1 = UInt32.ofNat (es ++ [e]).length := by
    rw [h.counted, hlength, UInt32.ofNat_add]
    rfl
  suffices hstep : (es ++ [e]).length < UInt32.size →
      (l.record e).1.warned = decide (lineCap.toNat < (es ++ [e]).length) ∧
        ls ++ (l.record e).2 = mirrored source (es ++ [e]) from
    ⟨(l.source_record e).trans h.named, (l.counted_record e).trans hnext,
      fun hword => (hstep hword).1, fun hword => (hstep hword).2⟩
  intro hword
  have hbefore : es.length < UInt32.size := by omega
  have hfits : l.counted + 1 ≤ lineCap ↔ es.length < lineCap.toNat := by
    rw [hnext, UInt32.le_iff_toNat_le, UInt32.toNat_ofNat_of_lt' hword, hlength]
    rfl
  have hline : ∀ level text, l.line level text = (new source).line level text := fun _ _ => by
    rw [line, h.named]
    rfl
  have hlines := mirrored_concat source es e
  rw [← h.lines hbefore, ← hline, ← hline] at hlines
  unfold EventLog.record
  dsimp only
  obtain hlt | heq | hgt := Nat.lt_trichotomy es.length lineCap.toNat
  · rw [if_pos hlt] at hlines
    rw [if_pos (hfits.mpr hlt)]
    refine ⟨(h.warned hbefore).trans (decide_eq_decide.mpr ?_), hlines.symm⟩
    omega
  · have hquiet : ¬l.warned = true := by
      rw [h.warned hbefore, decide_eq_true_eq]
      exact heq.not_gt
    rw [if_neg heq.not_lt, if_pos heq] at hlines
    rw [if_neg (mt hfits.mp heq.not_lt), if_neg hquiet]
    refine ⟨(decide_eq_true ?_).symm, hlines.symm⟩
    omega
  · have hwarned : l.warned = true := by
      rw [h.warned hbefore, decide_eq_true_eq]
      exact hgt
    rw [if_neg (Nat.lt_asymm hgt), if_neg hgt.ne'] at hlines
    rw [if_neg (mt hfits.mp (Nat.lt_asymm hgt)), if_pos hwarned]
    refine ⟨hwarned.trans (decide_eq_true ?_).symm, hlines.symm⟩
    omega

/-- Taking the events kept changes nothing in what is written. -/
theorem Written.drain {source : String} {es : List RunEvent} {ls : List LogLine} {l : EventLog}
    (h : Written source es ls l) : Written source es ls l.drain.2 :=
  ⟨h.named, h.counted, h.warned, h.lines⟩

theorem source_serveAll (l : EventLog) (requests : List Request) :
    (l.serveAll requests).source = l.source := by
  induction requests using List.reverseRecOn with
  | nil => rfl
  | append_singleton requests r ih =>
    rw [serveAll_concat, ← ih]
    cases r with
    | nextUpdate | drain => rfl
    | record e => exact source_record _ e

/-- From the beginning of an update on, the log writes what is mirrored of the events recorded. -/
theorem written_serveAll {source : String} {l : EventLog} (h : Written source [] [] l)
    (requests : List Request) (hsame : .nextUpdate ∉ requests) :
    Written source (recorded requests) (l.linesForAll requests) (l.serveAll requests) := by
  induction requests using List.reverseRecOn with
  | nil => exact h
  | append_singleton requests r ih =>
    obtain ⟨hsame, hr⟩ := not_or.mp (mt List.mem_append.mpr hsame)
    have ih := ih hsame
    rw [recorded_concat, linesForAll_concat, serveAll_concat]
    cases r with
    | nextUpdate => exact absurd (List.mem_singleton_self _) hr
    | record e => exact ih.record e
    | drain =>
      rw [show (Request.event? .drain).toList = [] from rfl, List.append_nil,
        show linesFor _ .drain = [] from rfl, List.append_nil]
      exact ih.drain

/-! ## Taking does not matter to writing -/

/-- Whether a log is drained makes no difference to the lines that it writes. -/
theorem record_drain (l : EventLog) (e : RunEvent) :
    (l.drain.2.record e).2 = (l.record e).2 ∧
      (l.drain.2.record e).1.drain.2 = (l.record e).1.drain.2 := by
  have hcounted : l.drain.2.counted = l.counted := rfl
  have hwarned : l.drain.2.warned = l.warned := rfl
  unfold record
  dsimp only
  rw [hcounted, hwarned]
  split
  · exact ⟨rfl, rfl⟩
  · split
    · exact ⟨rfl, rfl⟩
    · exact ⟨rfl, rfl⟩

/-- A log writes the same when what it keeps has been taken. -/
theorem linesForAll_drain : ∀ (requests : List Request) (l : EventLog),
    l.drain.2.linesForAll requests = l.linesForAll requests
  | [], _ => rfl
  | .nextUpdate :: requests, l => linesForAll_drain requests l.nextUpdate
  | .drain :: _, _ => rfl
  | .record e :: requests, l => by
    obtain ⟨hlines, hlog⟩ := l.record_drain e
    show (l.drain.2.record e).2 ++ (l.drain.2.record e).1.linesForAll requests =
      (l.record e).2 ++ (l.record e).1.linesForAll requests
    rw [hlines, ← linesForAll_drain requests (l.drain.2.record e).1, hlog,
      linesForAll_drain requests (l.record e).1]

/-- So the lines are the same without the drains. -/
theorem linesForAll_filter : ∀ (requests : List Request) (l : EventLog),
    l.linesForAll (requests.filter (!·.isDrain)) = l.linesForAll requests
  | [], _ => rfl
  | .nextUpdate :: requests, l => linesForAll_filter requests l.nextUpdate
  | .record e :: requests, l =>
    congrArg ((l.record e).2 ++ ·) (linesForAll_filter requests (l.record e).1)
  | .drain :: requests, l =>
    (linesForAll_filter requests l).trans (l.linesForAll_drain requests).symm

/-! ## Any sequence of requests -/

/-- Whatever a log was asked for since it was new, it keeps the last events that were recorded since
events were taken from it, up to its fixed number, and it hands over just these and then keeps none.
In each update, which begins with the log or where it is asked for, it writes the lines of the
first events that are recorded, in order, and one warning once there are more, whenever events are
taken from it. -/
theorem keeps_and_writes (source : String) (requests : List Request) :
    let l := (new source).serveAll requests
    let past := recordedSinceDrain requests
    (l.events.toList <:+ past ∧ l.events.toList.length = min past.length eventCap) ∧
    (l.drain.1 = l.events.toList ∧ l.drain.2.events.toList = []) ∧
    (∀ front update rest, requests = front ++ update ++ rest →
      (front = [] ∨ front.getLast? = some .nextUpdate) → .nextUpdate ∉ update →
      (recorded update).length < UInt32.size →
        ((new source).serveAll front).linesForAll update = mirrored source (recorded update)) ∧
    (new source).linesForAll (requests.filter (!·.isDrain)) =
      (new source).linesForAll requests := by
  intro l past
  have hkeeps : l.events.toList = past.rtake eventCap := keeps_serveAll source requests
  refine ⟨⟨?_, ?_⟩, ⟨rfl, rfl⟩, fun front update rest _ hfront hsame hword => ?_,
    linesForAll_filter requests _⟩
  · rw [hkeeps]
    exact List.drop_suffix _ _
  · rw [hkeeps, List.rtake, List.length_drop]
    omega
  · have hstart : Written source [] [] ((new source).serveAll front) := by
      obtain rfl | hlast := hfront
      · exact ⟨rfl, rfl, fun _ => rfl, fun _ => rfl⟩
      · obtain ⟨front, rfl⟩ := List.getLast?_eq_some_iff.mp hlast
        rw [serveAll_concat]
        exact written_nextUpdate (source_serveAll _ front)
    exact (written_serveAll hstart update hsame).lines hword

/-- Of the events of a first update of 101 events, the first one is taken before the others come.
The log keeps the others and that of the next update, and has written 100 lines and the warning. -/
theorem keeps_and_writes_after_limit :
    let update : List Request :=
      [.record .unlockSent, .drain] ++ List.replicate 100 (.record .unlockReceived)
    let requests := update ++ [.nextUpdate, .record .completed]
    let l := (new "master").serveAll requests
    ((recorded update).length < UInt32.size ∧ .nextUpdate ∉ update) ∧
    (l.events.toList <:+ List.replicate 100 .unlockReceived ++ [.completed] ∧
      l.drain.1.length = 101) ∧
    (new "master").linesForAll update =
      ⟨.debug, "[master] Sent UNLOCK"⟩ :: List.replicate 99 ⟨.debug, "[master] Received UNLOCK"⟩ ++
        [⟨.warn, "[master] Run log limit exceeded (100 messages/update). Further logs dropped."⟩] := by
  intro update requests l
  have hword : (recorded update).length < UInt32.size := by decide +kernel
  have hsame : .nextUpdate ∉ update := by decide +kernel
  obtain ⟨⟨hsuffix, hlength⟩, ⟨hdrain, -⟩, hwrites, -⟩ := keeps_and_writes "master" requests
  have hpast : recordedSinceDrain requests =
      List.replicate 100 .unlockReceived ++ [.completed] := by decide +kernel
  rw [hpast] at hsuffix hlength
  refine ⟨⟨hword, hsame⟩, ⟨hsuffix, hdrain ▸ hlength⟩, ?_⟩
  exact (hwrites [] update [.nextUpdate, .record .completed] rfl (Or.inl rfl) hsame hword).trans
    (by decide +kernel)

end EventLog

end Tandem
