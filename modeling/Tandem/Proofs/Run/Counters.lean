import Tandem.Proofs.Avatar.Altitude
import Tandem.Proofs.Run.Haste
import Tandem.Proofs.Run.Mirroring
import Tandem.Proofs.Run.Step
import Tandem.Simulation

/-!
# Counters that are words

Two numbers are counted in words : how high an avatar is, and how many events have come in an update
of a log. Neither of them stops at the greatest word. They are exact as long as what is counted fits
in a word, and start from zero again when it does not. For the log this means that it writes lines
again, however many it has written in the update (`EventLog.written_until_wrap`). For an avatar it
means that a climb takes it to the ground (`GridAvatar.altitude_exact`).

What is counted is not bounded. Loops may ask for more ticks than there are words, and a device
makes them all (`Career.counters_exact`, `Career.counters_wrap`).
-/

namespace Tandem

/-! ## The counter of a log -/

namespace EventLog

/-- The events recorded in the update that began last. -/
def recordedSinceUpdate (requests : List Request) : List RunEvent :=
  recorded (requests.rtakeWhile (· ≠ .nextUpdate))

/-- The log counts the events of the update in a word. -/
theorem counted_serveAll (source : String) (requests : List Request) :
    ((new source).serveAll requests).counted =
      UInt32.ofNat (recordedSinceUpdate requests).length := by
  induction requests using List.reverseRecOn with
  | nil => rfl
  | append_singleton requests r ih =>
    rw [serveAll_concat, recordedSinceUpdate]
    cases r with
    | nextUpdate =>
      rw [List.rtakeWhile_concat_neg _ _ _ (by simp)]
      rfl
    | drain =>
      rw [List.rtakeWhile_concat_pos _ _ _ (by simp), recorded_concat]
      exact ih.trans
        (congrArg (fun es : List RunEvent => UInt32.ofNat es.length) (List.append_nil _).symm)
    | record e =>
      rw [List.rtakeWhile_concat_pos _ _ _ (by simp), recorded_concat, List.length_append,
        UInt32.ofNat_add]
      show ((serveAll _ requests).record e).1.counted = _
      rw [counted_record, ih]
      rfl

/-- The event is written, whatever came before it in the update, if there is room for it by the
count. -/
theorem record_of_room {l : EventLog} {n : Nat} (hl : l.counted = UInt32.ofNat n)
    (hroom : (n + 1) % UInt32.size ≤ lineCap.toNat) (e : RunEvent) :
    (l.record e).2 = [l.line e.level e.sentence] := by
  have hnext : l.counted + 1 ≤ lineCap := by
    rw [UInt32.le_iff_toNat_le, hl, ← UInt32.ofNat_one, ← UInt32.ofNat_add, UInt32.toNat_ofNat']
    exact hroom
  unfold record
  rw [if_pos hnext]

theorem written_replicate (source : String) (e : RunEvent) (n : Nat) :
    Written source (List.replicate n e) ((new source).linesForAll (List.replicate n (.record e)))
      ((new source).serveAll (List.replicate n (.record e))) := by
  have hrecorded : recorded (List.replicate n (.record e)) = List.replicate n e :=
    List.filterMap_replicate_of_some rfl
  have hsame : .nextUpdate ∉ List.replicate n (Request.record e) := fun hmem =>
    nomatch List.eq_of_mem_replicate hmem
  rw [← hrecorded]
  exact written_serveAll (l := new source) ⟨rfl, rfl, fun _ => rfl, fun _ => rfl⟩ _ hsame

/-- A log that has counted as many events as a word can count starts again with the next one. -/
theorem written_until_wrap (source : String) (e : RunEvent) {n : Nat} (h : n + 1 = UInt32.size) :
    let requests := List.replicate n (.record e)
    let l := (new source).serveAll requests
    (new source).linesForAll requests =
        List.replicate 100 ((new source).line e.level e.sentence) ++
          [(new source).line .warn limitText] ∧
      l.counted.toNat = n ∧ (l.record e).1.counted = 0 ∧
        (l.record e).2 = [(new source).line e.level e.sentence] := by
  intro requests l
  have hwritten : Written source (List.replicate n e) ((new source).linesForAll requests) l :=
    written_replicate source e n
  have hlength : (List.replicate n e).length = n := List.length_replicate
  have hword : n < UInt32.size := Nat.lt_of_succ_le h.le
  have hmany : lineCap.toNat < n := by
    rw [UInt32.size] at h
    rw [show lineCap.toNat = 100 from rfl]
    omega
  have hcounted : l.counted = UInt32.ofNat n := hwritten.counted.trans (congrArg _ hlength)
  refine ⟨?_, ?_, ?_, ?_⟩
  · rw [hwritten.lines (hlength.symm ▸ hword), mirrored, hlength, List.take_replicate,
      List.map_replicate, if_pos hmany, Nat.min_eq_left hmany.le]
    rfl
  · rw [hcounted, UInt32.toNat_ofNat_of_lt' hword]
  · rw [counted_record, hcounted, ← UInt32.ofNat_one, ← UInt32.ofNat_add, h]
    rfl
  · rw [record_of_room hcounted (by rw [h, Nat.mod_self]; decide), line, hwritten.named]
    rfl

end EventLog

/-! ## The avatars of a career -/

namespace GridAvatar

/-- The requests that hand the commands to an avatar. -/
def requests (us : List Utterance) : List Request :=
  us.map fun u => .perform u.1 u.2

/-- To hand commands to a grid avatar is to ask it for them. -/
theorem handed_eq_serveAll (a : GridAvatar) (us : List Utterance) :
    Avatar.handed a us = a.serveAll (requests us) := by
  rw [serveAll, requests, List.foldl_map]
  rfl

/-- An avatar that cannot die serves whatever it is fated to. -/
theorem Safe.fate_eq {a : GridAvatar} (h : a.Safe) (us : List Utterance) :
    Avatar.fate a us = a.serveAll (requests us) := by
  induction us generalizing a with
  | nil => rfl
  | cons u us ih =>
    have hobey : Avatar.obey a u = a.serve (.perform u.1 u.2) := if_neg (by
      rw [show Avatar.isDead a = false from h.dead]
      exact Bool.false_ne_true)
    rw [Avatar.fate, List.foldl_cons, requests, List.map_cons, serveAll, List.foldl_cons, ← hobey]
    exact ih (h.obey u)

end GridAvatar

namespace Career

variable {α : Type}

/-- The own avatar, or the rival if `remote` is set. -/
def avatar (c : Career α) (remote : Bool) : α :=
  if remote then c.exec.rival else c.exec.own

variable [Avatar α]

/-- What an order does to an avatar is what the avatar is handed. -/
theorem handed_obey (c : Career α) (o : Order) (remote : Bool) : ∃ us,
    (c.obey o).seen (handWatch remote) = c.seen (handWatch remote) ++ us ∧
      (c.obey o).avatar remote = Avatar.handed (c.avatar remote) us := by
  have hpassage := ((c.exec.on c.script).passage_obey o).hands remote
  have hnext : ∀ begins, ((c.exec.on c.script).nextUpdateIf begins).seen (handWatch remote) = [] ∧
      ((c.exec.on c.script).nextUpdateIf begins).avatar remote = c.avatar remote := by
    intro begins
    cases begins <;> exact ⟨rfl, rfl⟩
  obtain ⟨us, hseen, havatar⟩ := hpassage
  rw [(hnext _).1, List.nil_append] at hseen
  rw [(hnext _).2] at havatar
  exact ⟨us, by rw [seen_obey, hseen], havatar⟩

/-- The avatars of a device are what the commands that they were handed have made of them. -/
theorem handed_attend (c : Career α) (errands : List Errand) (remote : Bool) : ∃ us,
    (errands.foldl attend c).seen (handWatch remote) = c.seen (handWatch remote) ++ us ∧
      (errands.foldl attend c).avatar remote = Avatar.handed (c.avatar remote) us := by
  induction errands generalizing c with
  | nil => exact ⟨[], (List.append_nil _).symm, rfl⟩
  | cons errand errands ih =>
    have hone : ∃ us, (c.attend errand).seen (handWatch remote) =
        c.seen (handWatch remote) ++ us ∧
          (c.attend errand).avatar remote = Avatar.handed (c.avatar remote) us := by
      cases errand with
      | order o => exact c.handed_obey o remote
      | drain => exact ⟨[], (List.append_nil _).symm, rfl⟩
    obtain ⟨us, hseen, havatar⟩ := hone
    obtain ⟨us', hseen', havatar'⟩ := ih (c.attend errand)
    refine ⟨us ++ us', ?_, ?_⟩
    · rw [List.foldl_cons, hseen', hseen, List.append_assoc]
    · rw [List.foldl_cons, havatar', havatar, Avatar.handed, Avatar.handed, Avatar.handed,
        List.foldl_append]

/-- The log of a device counts the events of the update that began last. -/
theorem counted_attend (role : Role) (mode : SyncMode) (timings : Timings) (wait : String)
    (own rival : α) (script : Script) (errands : List Errand) :
    let c := errands.foldl attend ⟨.new role mode timings wait own rival, script, []⟩
    c.exec.log.counted = UInt32.ofNat (Entry.allEvents (Entry.lastUpdate c.past)).length := by
  have hmirrors : ∀ (errands : List Errand) {c : Career α}, c.Mirrors role.name →
      (errands.foldl attend c).Mirrors role.name := by
    intro errands
    induction errands with
    | nil => exact fun h => h
    | cons errand errands ih => exact fun h => ih (h.attend errand)
  refine (hmirrors errands ⟨⟨rfl, rfl, fun _ => rfl, fun _ => rfl⟩, fun front en later hpast => ?_⟩)
    |>.written.counted
  exact absurd hpast.symm (List.append_ne_nil_of_right_ne_nil _ (List.cons_ne_nil _ _))

/-! ## Whatever is counted -/

/-- The altitude of an avatar is exact after each request just if its flight fits in a word after
each of them, and the climb with which it first does not leaves the avatar on the ground. A log
counts the events of an update exactly just if their number fits in a word, and in any case up to
multiples of the number of words, and it writes the line of an event if by this count it is one of
the first hundred. What a device does for its script, or for others, is nothing else : its avatars
have served what they were handed, and its log has counted what was recorded. -/
theorem counters_exact (a : GridAvatar) (requests : List GridAvatar.Request) (source : String)
    (asked : List EventLog.Request) (role : Role) (mode : SyncMode) (timings : Timings)
    (wait : String) (own rival : GridAvatar) (script : Script) (errands : List Errand) :
    (((∀ rs, rs <+: requests → (a.serveAll rs).altitude.toNat = (a.flight rs).height) ↔
        ∀ rs, rs <+: requests → (a.flight rs).height < UInt32.size) ∧
      ∀ r, (∀ rs, rs <+: requests → (a.flight rs).height < UInt32.size) →
        UInt32.size ≤ (a.flight (requests ++ [r])).height →
          (a.serveAll (requests ++ [r])).altitude = 0) ∧
    (let l := (EventLog.new source).serveAll asked
     let n := (EventLog.recordedSinceUpdate asked).length
     l.counted.toNat = n % UInt32.size ∧ (l.counted.toNat = n ↔ n < UInt32.size) ∧
        ∀ e, (n + 1) % UInt32.size ≤ 100 → (l.record e).2 = [l.line e.level e.sentence]) ∧
    (let c := errands.foldl attend ⟨.new role mode timings wait own rival, script, []⟩
     c.exec.own = own.serveAll (GridAvatar.requests (c.seen (handWatch false))) ∧
      c.exec.rival = rival.serveAll (GridAvatar.requests (c.seen (handWatch true))) ∧
      c.exec.log.counted.toNat =
        (Entry.allEvents (Entry.lastUpdate c.past)).length % UInt32.size) := by
  refine ⟨a.altitude_exact requests, ?_, ?_⟩
  · intro l n
    have hcounted : l.counted = UInt32.ofNat n := EventLog.counted_serveAll source asked
    have hmod : l.counted.toNat = n % UInt32.size := by rw [hcounted, UInt32.toNat_ofNat']
    refine ⟨hmod, ?_, fun e hroom => EventLog.record_of_room hcounted hroom e⟩
    rw [hmod, Nat.mod_eq_iff_lt (by decide)]
  · intro c
    have hhanded : ∀ remote, c.avatar remote =
        Avatar.handed (if remote then rival else own) (c.seen (handWatch remote)) := by
      intro remote
      obtain ⟨us, hseen, havatar⟩ := handed_attend
        ⟨.new role mode timings wait own rival, script, []⟩ errands remote
      rw [show us = c.seen (handWatch remote) from hseen.symm] at havatar
      exact havatar
    refine ⟨?_, ?_, ?_⟩
    · rw [← GridAvatar.handed_eq_serveAll]
      exact hhanded false
    · rw [← GridAvatar.handed_eq_serveAll]
      exact hhanded true
    · rw [counted_attend, UInt32.toNat_ofNat']

/-- With its engine on, an avatar that has climbed as often as a word can count is as high as that,
and with the next climb it is on the ground. A log counts the events of the update that began last,
and writes the line of the next one. -/
theorem counters_exact_at_top :
    let a : GridAvatar := { GridAvatar.new .standard 6 false [] true with engineOn := true }
    let requests := List.replicate (UInt32.size - 1) GridAvatar.climbing
    (∀ rs, rs <+: requests → (a.flight rs).height < UInt32.size) ∧
    UInt32.size ≤ (a.flight (requests ++ [GridAvatar.climbing])).height ∧
    (a.serveAll requests).altitude.toNat = UInt32.size - 1 ∧
    (a.serveAll (requests ++ [GridAvatar.climbing])).altitude = 0 ∧
    (let l := (EventLog.new "master").serveAll
      [.record .unlockSent, .nextUpdate, .record .completed]
    (1 + 1) % UInt32.size ≤ 100 ∧ l.counted.toNat = 1 ∧
      (l.record .unlockReceived).2 = [⟨.debug, "[master] Received UNLOCK"⟩]) := by
  intro a requests
  have hflight : ∀ n, (a.flight (List.replicate n GridAvatar.climbing)).height = n := by
    intro n
    rw [(GridAvatar.climbs_replicate (by decide +kernel) rfl n).2]
    exact Nat.zero_add n
  have hlow : ∀ rs, rs <+: requests → (a.flight rs).height < UInt32.size := by
    intro rs hrs
    obtain ⟨hle, heq⟩ := List.prefix_replicate_iff.mp hrs
    rw [heq, hflight]
    exact Nat.lt_of_le_pred (by decide) hle
  have htop : UInt32.size ≤ (a.flight (requests ++ [GridAvatar.climbing])).height := by
    rw [← List.replicate_succ', hflight]
    decide
  obtain ⟨⟨hexact, hwrap⟩, ⟨hcounted, -, hwritten⟩, -⟩ := counters_exact a requests "master"
    [.record .unlockSent, .nextUpdate, .record .completed] .master .async .standard "Continue_Sec"
    a a ⟨[]⟩ []
  refine ⟨hlow, htop, ?_, hwrap _ hlow htop, by decide, hcounted, hwritten _ (by decide)⟩
  rw [hexact.mpr hlow _ List.prefix_rfl, hflight]

/-! ## Towers -/

/-- A vocabulary whose commands to climb take no part in the synchronisation. -/
def climbers : Vocabulary where
  commands :=
    [⟨"Start_Engine", .none, false, false⟩, ⟨"Climb_Up", .none, false, false⟩,
      ⟨"Continue_Sec", .number, true, false⟩]
  waitCommand := "Continue_Sec"

/-- The engine is started, and then the avatar climbs so many floors of so many steps. -/
def tower (floors steps : UInt32) : Script :=
  ⟨[.ofName "Start_Engine" [], .repeated floors [.repeated steps [.ofName "Climb_Up" []]]]⟩

/-- A device that knows how to climb a tower. -/
def towerDevice : Executor GridAvatar :=
  (Simulation.device { SimulationSettings.standard with vocabulary := climbers } .master).exec

section Towers

variable (floors steps : UInt32)

/-- A run through the tower starts the engine and climbs, once for each step of each floor. -/
theorem utterances_tower : (tower floors steps).utterances "Continue_Sec" =
    ("Start_Engine", []) :: List.replicate (floors.toNat * steps.toNat) ("Climb_Up", []) := by
  have hfloor : Command.utterancesOf "Continue_Sec" [.repeated steps [.ofName "Climb_Up" []]] =
      List.replicate steps.toNat ("Climb_Up", []) :=
    Command.utterancesOf_repeated (by decide) steps []
  have hfloors : Command.utterancesOf "Continue_Sec"
      [.repeated floors [.repeated steps [.ofName "Climb_Up" []]]] =
      (List.replicate floors.toNat (Command.utterancesOf "Continue_Sec"
        [.repeated steps [.ofName "Climb_Up" []]])).flatten :=
    List.append_nil _
  rw [hfloor, List.flatten_replicate_replicate] at hfloors
  exact congrArg (("Start_Engine", []) :: ·) hfloors

/-- No tick of the tower takes part in the synchronisation. -/
theorem free_tower :
    ∀ tick ∈ (tower floors steps).expansion towerDevice.waitRule,
      tick.Free towerDevice.own.vocabulary := by
  refine Script.free_of_gives (Script.gives_of_every (Q := fun c => c.children = [] →
    c.name ≠ "Continue_Sec" ∧ climbers.isLock c.name = false) (fun _ hb => hb rfl) ?_)
  have hleaf : ∀ name, name = "Start_Engine" ∨ name = "Climb_Up" →
      name ≠ "Continue_Sec" ∧ climbers.isLock name = false := by
    rintro name (rfl | rfl) <;> decide +kernel
  have hloop : ∀ {c : Command} {cs : List Command} {P : Prop}, c :: cs = [] → P := fun h =>
    absurd h (List.cons_ne_nil _ _)
  exact ⟨fun _ => hleaf _ (.inl rfl), ⟨hloop, ⟨hloop, fun _ => hleaf _ (.inr rfl), trivial⟩,
    trivial⟩, trivial⟩

/-- With its engine started the avatar climbs the steps in words, and its flight in numbers. -/
theorem climbs_tower (n : Nat) :
    let a := towerDevice.own
    let requests := .perform "Start_Engine" [] :: List.replicate n GridAvatar.climbing
    (a.serveAll requests).altitude = UInt32.ofNat n ∧ (a.flight requests).height = n := by
  intro a requests
  have hserve : a.serve (.perform "Start_Engine" []) = { a with engineOn := true } := by
    decide +kernel
  have hflies : a.flies ⟨a.engineOn, a.altitude.toNat⟩ (.perform "Start_Engine" []) =
      ⟨true, 0⟩ := by
    decide +kernel
  obtain ⟨hclimbs, hclimbed⟩ := GridAvatar.climbs_replicate (a := { a with engineOn := true })
    (by decide +kernel) rfl n
  constructor
  · rw [GridAvatar.serveAll, List.foldl_cons, hserve]
    refine (congrArg GridAvatar.altitude hclimbs).trans ?_
    exact UInt32.zero_add _
  · rw [GridAvatar.flight, List.foldl_cons, hflies]
    exact (congrArg Flight.height hclimbed).trans (Nat.zero_add n)

/-- The device climbs the tower when it is started, whatever its height. -/
theorem run_tower :
    let t := (towerDevice.on (tower floors steps)).run.1
    let height := floors.toNat * steps.toNat
    t.told = ("Start_Engine", []) :: List.replicate height ("Climb_Up", []) ∧
      t.exec.own = towerDevice.own.serveAll (GridAvatar.requests t.told) ∧
      (towerDevice.own.flight (GridAvatar.requests t.told)).height = height ∧
      t.exec.own.altitude = UInt32.ofNat height := by
  intro t height
  have hexcused : (towerDevice.on (tower floors steps)).Excused False :=
    ⟨rfl, fun hrun => (nomatch hrun), fun hi => absurd rfl hi⟩
  have hsafe : towerDevice.own.Safe := ⟨rfl, rfl⟩
  obtain ⟨htold, hown⟩ := Turn.run_of_free rfl hexcused hsafe (free_tower floors steps)
  have hasks : (towerDevice.on (tower floors steps)).script.utterances
      (towerDevice.on (tower floors steps)).exec.waitRule.command = _ :=
    utterances_tower floors steps
  rw [hasks] at htold hown
  have htold : t.told = ("Start_Engine", []) :: List.replicate height ("Climb_Up", []) :=
    htold
  have hrequests : GridAvatar.requests t.told =
      .perform "Start_Engine" [] :: List.replicate height GridAvatar.climbing := by
    rw [htold, GridAvatar.requests, List.map_cons, List.map_replicate]
    rfl
  have hown : t.exec.own = towerDevice.own.serveAll (GridAvatar.requests t.told) := by
    rw [htold]
    exact hown.trans (hsafe.fate_eq _)
  obtain ⟨haltitude, hheight⟩ := climbs_tower height
  refine ⟨htold, hown, ?_, ?_⟩
  · rw [hrequests]
    exact hheight
  · rw [hown, hrequests]
    exact haltitude

end Towers

/-- A device that runs a tower with as many steps as there are words makes all the climbs with its
engine on, and then its avatar is on the ground. A log that has recorded as many events in an update
as a word can count has written the first hundred lines and the warning. With the next event it
counts none, and it writes that event. -/
theorem counters_wrap :
    (climbers.check = .ok () ∧
      let t := (towerDevice.on (tower 65536 65536)).run.1
      t.told = ("Start_Engine", []) :: List.replicate UInt32.size ("Climb_Up", []) ∧
      t.exec.own = towerDevice.own.serveAll (GridAvatar.requests t.told) ∧
      (towerDevice.own.flight (GridAvatar.requests t.told)).height = UInt32.size ∧
      t.exec.own.altitude = 0) ∧
    let requests := List.replicate (UInt32.size - 1) (EventLog.Request.record .unlockReceived)
    let l := (EventLog.new "master").serveAll requests
    ((EventLog.new "master").linesForAll requests =
      List.replicate 100 ⟨.debug, "[master] Received UNLOCK"⟩ ++
        [⟨.warn, "[master] Run log limit exceeded (100 messages/update). Further logs dropped."⟩]) ∧
      l.counted.toNat = UInt32.size - 1 ∧ (l.record .unlockReceived).1.counted = 0 ∧
        (l.record .unlockReceived).2 = [⟨.debug, "[master] Received UNLOCK"⟩] := by
  have hheight : UInt32.toNat 65536 * UInt32.toNat 65536 = UInt32.size := by decide
  have htower := run_tower 65536 65536
  rw [hheight] at htower
  exact ⟨⟨by decide +kernel, htower⟩,
    EventLog.written_until_wrap "master" .unlockReceived (by decide)⟩

end Career

end Tandem
