import Tandem.Proofs.Pair.Mirror

/-!
# The rivals of a simulation

When a simulation has finished, the rival of each device stands across the board from the avatar of
the other device (`Simulation.rivals_mirror`), if at no moment a static command was on its way to
one device while a command was on its way to the other.

Where such commands cross, the devices carry them out in different orders, and no order is promised
across devices : a reset that crosses a move takes back the rival's move on one device, and is
followed by it on the other one (`Simulation.rival_after_crossing_reset`).
-/

namespace Tandem

/-- The rival of each device stands across a board of that size from the avatar of the other one. -/
def SimulationReport.RivalsAcross (size : Int) (report : SimulationReport) : Prop :=
  report.slave.rivalPosition = acrossBoard size report.master.position ∧
    report.master.rivalPosition = acrossBoard size report.slave.position

instance (size : Int) (report : SimulationReport) : Decidable (report.RivalsAcross size) :=
  inferInstanceAs (Decidable (_ ∧ _))

namespace Simulation

/-! ## The moments of a simulation -/

/-- The pair before and after each text that is taken in, while both devices take in what was sent
to them. -/
def exchangeMoments (p : Pair GridAvatar) : List (Pair GridAvatar) :=
  p.takings .master (p.link.pending .master) ++
    (p.deliver .master).takings .slave ((p.deliver .master).link.pending .slave)

/-- The pair after each update, while the length of a step passes. -/
def passMoments (dt : Float32) (p : Pair GridAvatar) : List (Pair GridAvatar) :=
  [p.update .master dt, pass dt p]

/-- The pair at every moment of at most that many steps after the first `done` ones. -/
def stepMoments (dt : Float32) : Nat → Nat → Recording → List (Pair GridAvatar)
  | 0, _, _ => []
  | left + 1, done, r =>
    let exchanged := (r.step exchange).collect (Float32.ofNat done * dt)
    exchangeMoments r.pair ++
      if exchanged.pair.isSettled then []
      else
        passMoments dt exchanged.pair ++
          stepMoments dt left (done + 1)
            ((exchanged.step (pass dt)).collect (Float32.ofNat (done + 1) * dt))

theorem mem_stepMoments (dt : Float32) {left : Nat} (hl : 0 < left) (done : Nat) (r : Recording) :
    r.pair ∈ stepMoments dt left done r := by
  obtain ⟨left, rfl⟩ := Nat.exists_eq_add_of_lt hl
  rw [Nat.zero_add, stepMoments]
  exact List.mem_append_left _ (List.mem_append_left _ (r.pair.mem_takings .master _))

/-- The pair at every moment of the run of two scripts against each other. -/
def moments (masterScript slaveScript : String) (c : SimulationSettings) : List (Pair GridAvatar) :=
  stepMoments c.timeStep (maxSteps c) 0 (begin c masterScript slaveScript)

end Simulation

/-! ## What keeps a pair mirrored -/

namespace Pair.Mirrored

variable {v : Vocabulary} {size : Int} {p p' : Pair GridAvatar}

/-- The mirror is about the avatars, the working scripts and the texts on their way. -/
theorem congr (h : p.Mirrored v size) (hl : p'.link = p.link)
    (hc : ∀ role, (p'.session role).crew = (p.session role).crew)
    (hs : ∀ role, (p'.session role).Speaks v) : p'.Mirrored v size := by
  refine ⟨fun role => ?_, hs⟩
  rw [hl, hc, hc]
  exact h.agree role

/-- The script in a text is loaded. -/
theorem loadText (h : p.Mirrored v size) (hv : v.check = .ok ()) (hs : 0 < size) (role : Role)
    (hvoc : (p.session role).vocabulary = v) (text : String) :
    (p.loadText role text).Mirrored v size := by
  have habandon : (p.after role (p.session role).abandon).Mirrored v size := by
    -- To give up a run tells of no command, so nothing can cross here.
    have hsilent : ∀ u ∈ (p.session role).lend.abandon.told, False :=
      (p.session role).lend.plays_abandon.forall_told nofun
    exact h.after_of_passes hv hs (p.session role).lend.plays_abandon fun u hu =>
      (hsilent u hu).elim
  refine habandon.congr rfl (fun role' => ?_) fun role' => ?_
  · cases role <;> cases role' <;> rfl
  · obtain rfl | rfl := role'.eq_or_eq_peer role
    · intro script hw
      rw [Pair.loadText, Pair.session_after_self] at hw
      obtain rfl : _ = script := Option.some.inj hw
      exact hvoc ▸ Script.gives_ofText _ text
    · rw [Pair.loadText, Pair.session_after_peer]
      exact h.speaks role.peer

/-- Both sessions take in what was sent to them. -/
theorem exchange (h : p.Mirrored v size) (hv : v.check = .ok ()) (hs : 0 < size)
    (hx : ∀ q ∈ Simulation.exchangeMoments p, q.link.crosses v = false) :
    (Simulation.exchange p).Mirrored v size := by
  rw [Simulation.exchangeMoments, List.forall_mem_append] at hx
  have hmaster : (p.deliver .master).Mirrored v size := by
    rw [Pair.deliver_eq]
    exact takeInMany hv hs _ h hx.1
  rw [Simulation.exchange, Pair.deliver_eq (p.deliver .master)]
  exact takeInMany hv hs _ hmaster hx.2

/-- A stretch of time passes for one of the sessions. -/
theorem update (h : p.Mirrored v size) (hv : v.check = .ok ()) (hs : 0 < size) (role : Role)
    (dt : Float32) (hx : (p.update role dt).link.crosses v = false) :
    (p.update role dt).Mirrored v size := by
  rw [Pair.update, ← Session.after_updating] at hx ⊢
  exact h.after hv hs (Session.plays_updating (h.speaks role) dt) hx

/-- The length of a step passes for both sessions. -/
theorem pass (h : p.Mirrored v size) (hv : v.check = .ok ()) (hs : 0 < size) (dt : Float32)
    (hx : ∀ q ∈ Simulation.passMoments dt p, q.link.crosses v = false) :
    (Simulation.pass dt p).Mirrored v size := by
  rw [Simulation.passMoments, List.forall_mem_cons, List.forall_mem_singleton] at hx
  exact (h.update hv hs .master dt hx.1).update hv hs .slave dt hx.2

/-- One of the sessions asks for a run. -/
theorem startTogether (h : p.Mirrored v size) (hv : v.check = .ok ()) (hs : 0 < size) (role : Role)
    (hx : (p.startTogether role).link.crosses v = false) :
    (p.startTogether role).Mirrored v size := by
  rw [Pair.startTogether, ← Session.after_asking] at hx ⊢
  exact h.after hv hs (Session.plays_asking (h.speaks role)) hx

end Pair.Mirrored

namespace Simulation

variable {c : SimulationSettings} {v : Vocabulary} {size : Int}

/-- The avatars of a device before the simulation are the images of those of the other device. -/
theorem mirrored_pair (hs : 1 ≤ c.gridSize) : (pair c).Mirrored c.vocabulary c.gridSize := by
  have hmax : max c.gridSize 1 = c.gridSize := by omega
  have honBoard : ∀ role, (device c role).crew.OnBoard c.vocabulary c.gridSize :=
    fun _ => ⟨rfl, hmax⟩
  have himage : ∀ role role', (device c role).crew.rival = (device c role').crew.own.image :=
    fun _ _ => (GridAvatar.new_image c.vocabulary hs c.traps true).symm
  refine ⟨fun role => ?_, fun role script hw => ?_⟩
  · cases role
    · exact ⟨honBoard .master, honBoard .slave, himage .slave .master, himage .master .slave⟩
    · exact ⟨honBoard .slave, honBoard .master, himage .master .slave, himage .slave .master⟩
  · cases role <;> cases hw

theorem mirrored_collect {r : Recording} (h : r.pair.Mirrored v size) (time : Float32) :
    (r.collect time).pair.Mirrored v size :=
  h.congr rfl (fun role => by cases role <;> rfl) fun role => by
    cases role
    · exact h.speaks .master
    · exact h.speaks .slave

/-- Before the first step, the pair is mirrored. -/
theorem mirrored_begin (hv : c.vocabulary.check = .ok ()) (hs : 1 ≤ c.gridSize)
    {masterScript slaveScript : String}
    (hx : (begin c masterScript slaveScript).pair.link.crosses c.vocabulary = false) :
    (begin c masterScript slaveScript).pair.Mirrored c.vocabulary c.gridSize := by
  have hpos : 0 < c.gridSize := hs
  have hmaster := (mirrored_pair hs).loadText hv hpos .master rfl masterScript
  have hslave := hmaster.loadText hv hpos .slave rfl slaveScript
  have hloaded := mirrored_collect
    (r := (Recording.mk (pair c) #[] #[]).step (load masterScript slaveScript)) hslave 0
  have hasked := hloaded.startTogether hv hpos .master hx
  unfold begin
  exact mirrored_collect (r := Recording.step _ (·.startTogether .master)) hasked 0

/-- Once nothing is on its way, the rivals of a mirrored pair stand across the board. -/
theorem rivalsAcross_report {r : Recording} (h : r.pair.Mirrored v size)
    (hp : r.pair.isSettled = true) (steps : Nat) (dt : Float32) (finished : Bool) :
    (r.report steps dt finished).RivalsAcross size := by
  simp only [Pair.isSettled, Bool.and_eq_true, beq_iff_eq, Link.pending, List.length_eq_zero_iff]
    at hp
  have hmaster : r.pair.link.told .master = [] := by rw [Link.told, hp.1.2]; rfl
  have hslave : r.pair.link.told .slave = [] := by rw [Link.told, hp.2.2]; rfl
  have hagree := h.agree .master
  rw [show Role.peer .master = .slave from rfl, hmaster, hslave] at hagree
  have himage : ∀ {a : GridAvatar}, a.size = size →
      a.image.position = acrossBoard size a.position := fun ha => ha ▸ rfl
  exact ⟨(congrArg GridAvatar.position hagree.mirrors.rival).trans (himage hagree.onBoard.size),
    (congrArg GridAvatar.position hagree.mirrors.own).trans (himage hagree.onBoard'.size)⟩

/-- A simulation that starts with a mirrored pair ends with its rivals across the board. -/
theorem rivalsAcross_steps (hv : v.check = .ok ()) (hs : 0 < size) (dt : Float32) :
    ∀ (left done : Nat) {r : Recording}, r.pair.Mirrored v size →
      (∀ p ∈ stepMoments dt left done r, p.link.crosses v = false) →
        (steps dt left done r).finished = true → (steps dt left done r).RivalsAcross size
  | 0, _, _, _, _, hfinished => nomatch hfinished
  | left + 1, done, r, h, hx, hfinished => by
    rw [stepMoments, List.forall_mem_append] at hx
    have hexchanged := mirrored_collect (r := r.step exchange) (h.exchange hv hs hx.1)
      (Float32.ofNat done * dt)
    unfold steps at hfinished ⊢
    dsimp only at hfinished ⊢
    generalize (r.step exchange).collect (Float32.ofNat done * dt) = exchanged
      at hx hexchanged hfinished ⊢
    -- Either nothing is on its way, and the mirror shows, or the step passes.
    split
    · next hsettled => exact rivalsAcross_report hexchanged hsettled _ _ _
    · next hsettled =>
      rw [if_neg hsettled] at hx hfinished
      rw [List.forall_mem_append] at hx
      have hpassed := mirrored_collect (r := exchanged.step (pass dt))
        (hexchanged.pass hv hs dt hx.2.1) (Float32.ofNat (done + 1) * dt)
      exact rivalsAcross_steps hv hs dt left (done + 1) hpassed hx.2.2 hfinished

theorem vocabulary_check {c : SimulationSettings} (h : check c = .ok ()) :
    c.vocabulary.check = .ok () := by
  unfold check at h
  split at h
  · cases h
  · split at h
    · cases h
    · split at h
      · cases h
      · split at h
        · cases h
        · assumption

/-- When a simulation has finished, the rival of each device stands across the board from the avatar
of the other one, if no static command has crossed a command of the other device. -/
theorem rivals_mirror {c : SimulationSettings} {masterScript slaveScript : String}
    {report : SimulationReport} (hs : 1 ≤ c.gridSize)
    (hrun : run masterScript slaveScript c = .ok report) (hfinished : report.finished = true)
    (hx : ∀ p ∈ moments masterScript slaveScript c, p.link.crosses c.vocabulary = false) :
    report.RivalsAcross c.gridSize := by
  unfold run at hrun
  split at hrun
  · cases hrun
  · next hc =>
    have hv := vocabulary_check hc
    cases hrun
    have hbegin : (begin c masterScript slaveScript).pair.link.crosses c.vocabulary = false :=
      hx _ (mem_stepMoments _ (Nat.le_max_left 1 _) 0 _)
    exact rivalsAcross_steps hv hs c.timeStep _ 0 (mirrored_begin hv hs hbegin) hx hfinished

theorem exists_report {x : Except SimulationError SimulationReport} (q : SimulationReport → Bool)
    (h : x.toOption.any q = true) : ∃ report, x = .ok report ∧ q report = true := by
  cases x with
  | error e => cases h
  | ok report => exact ⟨report, rfl, h⟩

/-- The master goes back to its first cell when the slave has nothing more to say, and moves on. -/
theorem rivals_mirror_after_reset :
    ∃ report, run "MOVE (EAST);\nMOVE (EAST);\nRESET;\nMOVE (EAST);\n" "MOVE (EAST);\n"
        { SimulationSettings.standard with timeStep := 0.5 } = .ok report ∧
      report.finished = true ∧ report.RivalsAcross 6 := by
  obtain ⟨report, hrun, hfinished⟩ := exists_report
    (x := run "MOVE (EAST);\nMOVE (EAST);\nRESET;\nMOVE (EAST);\n" "MOVE (EAST);\n"
      { SimulationSettings.standard with timeStep := 0.5 })
    SimulationReport.finished (by decide +kernel)
  refine ⟨report, hrun, hfinished, ?_⟩
  exact rivals_mirror (by decide) hrun hfinished (by decide +kernel)

/-- A reset of the master crosses a move of the slave. -/
theorem rival_after_crossing_reset :
    ∃ report, run "RESET;\n" "MOVE (EAST);\n" { SimulationSettings.standard with mode := .async } =
        .ok report ∧ report.finished = true ∧ ¬report.RivalsAcross 6 := by
  obtain ⟨report, hrun, hreport⟩ := exists_report
    (x := run "RESET;\n" "MOVE (EAST);\n" { SimulationSettings.standard with mode := .async })
    (fun report => report.finished && !decide (report.RivalsAcross 6)) (by decide +kernel)
  rw [Bool.and_eq_true, Bool.not_eq_true', decide_eq_false_iff_not] at hreport
  exact ⟨report, hrun, hreport⟩

end Simulation

end Tandem
