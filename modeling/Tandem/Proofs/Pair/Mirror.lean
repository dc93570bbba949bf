import Tandem.Proofs.Avatar.Image
import Tandem.Proofs.Pair.Duet
import Tandem.Proofs.Run.Crew
import Tandem.Proofs.Wire.Decoding

/-!
# Rivals mirror their avatars

Each device of a pair on a grid has a rival that replays what the other device tells of. Once both
have taken in everything that is on its way to them, the rival of either device is the image of the
other one's avatar : this is what `Crew.Agree` says of two crews and the commands on their way
between them.

A command that a device takes in changes nothing about it (`Crew.Agree.hear`), and neither does a
command that a device makes, as long as it does not matter whether that command or those on their
way to the device come first (`Crew.Agree.issue`). It may matter if one of them is static, because
such a command moves both avatars. So the mirror holds while no static command crosses one of the
other device (`Link.crosses`).

`Pair.Mirrored` says this of a pair. It is preserved by what a session does (`Pair.Mirrored.after`)
and by the texts that a session takes in, one after the other (`Pair.Mirrored.takeInMany`).
-/

namespace Tandem

/-! ## Crews -/

namespace Crew

variable {v : Vocabulary} {size : Int} {k k' : Crew GridAvatar}

/-- The avatars of a device that has that vocabulary and a board of that size. -/
structure OnBoard (v : Vocabulary) (size : Int) (k : Crew GridAvatar) : Prop where
  vocabulary : k.own.vocabulary = v
  size : k.own.size = size

/-- Avatars on the board of a vocabulary know its static commands. -/
theorem OnBoard.isStatic (h : k.OnBoard v size) (name : String) :
    Avatar.isStatic k.own name = v.isStatic name :=
  congrArg (·.isStatic name) h.vocabulary

/-- The own avatar performs a command, or is left alone. -/
theorem own_perform (k : Crew GridAvatar) (remote : Bool) (u : Utterance) :
    (k.perform remote u).own = k.own ∨
      (k.perform remote u).own = (k.own.perform u.1 u.2).avatar := by
  unfold Crew.perform
  generalize Avatar.isDead (if remote then k.rival else k.own) = dead
  generalize Avatar.isStatic k.own u.1 = static
  cases dead <;> cases static <;> cases remote <;> first | exact Or.inl rfl | exact Or.inr rfl

/-- No command takes an avatar off its board. -/
theorem OnBoard.perform (h : k.OnBoard v size) (remote : Bool) (u : Utterance) :
    (k.perform remote u).OnBoard v size := by
  obtain ho | ho := k.own_perform remote u
  · exact ⟨ho ▸ h.vocabulary, ho ▸ h.size⟩
  · exact ⟨ho ▸ (k.own.vocabulary_perform u.1 u.2).trans h.vocabulary,
      ho ▸ (k.own.size_perform u.1 u.2).trans h.size⟩

theorem OnBoard.replay (h : k.OnBoard v size) (us : List Utterance) :
    (k.replay us).OnBoard v size := by
  induction us generalizing k with
  | nil => exact h
  | cons u us ih => exact ih (h.perform true u)

/-- The rival of each crew is the image of the other one's avatar. -/
structure Mirrors (k k' : Crew GridAvatar) : Prop where
  rival : k'.rival = k.own.image
  own : k.rival = k'.own.image

theorem Mirrors.symm (h : Mirrors k k') : Mirrors k' k :=
  ⟨h.own, h.rival⟩

/-- A command that one device makes and the other one replays leaves them mirrored. -/
theorem Mirrors.perform (h : Mirrors k k') (hk : k.OnBoard v size) (hk' : k'.OnBoard v size)
    (hs : 0 < size) (u : Utterance) : Mirrors (k.perform false u) (k'.perform true u) := by
  have hdead : Avatar.isDead k'.rival = Avatar.isDead k.own := by rw [h.rival]; rfl
  have hown : (Avatar.perform k'.rival u.1 u.2).avatar =
      (Avatar.perform k.own u.1 u.2).avatar.image := by
    rw [h.rival]
    exact k.own.perform_image (hk.size ▸ hs) u.1 u.2
  have hrival : (Avatar.perform k.rival u.1 u.2).avatar =
      (Avatar.perform k'.own u.1 u.2).avatar.image := by
    rw [h.own]
    exact k'.own.perform_image (hk'.size ▸ hs) u.1 u.2
  -- The two devices agree on whether the command is dropped, and on whether it is static.
  simp only [Crew.perform, hdead, hk.isStatic, hk'.isStatic, if_true, Bool.false_eq_true, if_false]
  split
  · exact h
  · split
    · exact ⟨hown, hrival⟩
    · exact ⟨hown, h.own⟩

/-- Two commands that are not static concern different avatars, if they are of different devices. -/
theorem perform_comm (hk : k.OnBoard v size) {u w : Utterance} (hu : v.isStatic u.1 = false)
    (hw : v.isStatic w.1 = false) :
    (k.perform false u).perform true w = (k.perform true w).perform false u := by
  have hown : ∀ {k : Crew GridAvatar}, k.OnBoard v size → k.perform false u =
      if Avatar.isDead k.own then k
      else { k with own := (Avatar.perform k.own u.1 u.2).avatar } := by
    intro k hk
    simp [Crew.perform, hk.isStatic, hu]
  have hrival : ∀ {k : Crew GridAvatar}, k.OnBoard v size → k.perform true w =
      if Avatar.isDead k.rival then k
      else { k with rival := (Avatar.perform k.rival w.1 w.2).avatar } := by
    intro k hk
    simp [Crew.perform, hk.isStatic, hw]
  rw [hrival (hk.perform false u), hown (hk.perform true w), hown hk, hrival hk]
  cases hd : Avatar.isDead k.own <;> cases hd' : Avatar.isDead k.rival <;> simp [hd, hd']

/-- It does not matter whether the command of this device or those of the other one come first. -/
def Passes (v : Vocabulary) (u : Utterance) (us : List Utterance) : Prop :=
  us = [] ∨ v.isStatic u.1 = false ∧ ∀ w ∈ us, v.isStatic w.1 = false

/-- A command of the device itself and those of the other one do not get into each other's way, if
they pass each other. -/
theorem replay_perform (hk : k.OnBoard v size) {u : Utterance} {us : List Utterance}
    (h : Passes v u us) : (k.perform false u).replay us = (k.replay us).perform false u := by
  obtain rfl | ⟨hu, hus⟩ := h
  · rfl
  · induction us generalizing k with
    | nil => rfl
    | cons w us ih =>
      rw [List.forall_mem_cons] at hus
      have hcomm := perform_comm hk hu hus.1
      have hrest := ih (hk.perform true w) hus.2
      rw [← hcomm] at hrest
      exact hrest

/-- Once the first crew has taken in the commands that are on their way to it, and the second one
those on their way to it, they mirror each other. -/
structure Agree (v : Vocabulary) (size : Int) (k k' : Crew GridAvatar) (us us' : List Utterance) :
    Prop where
  onBoard : k.OnBoard v size
  onBoard' : k'.OnBoard v size
  mirrors : Mirrors (k.replay us) (k'.replay us')

namespace Agree

variable {us us' : List Utterance} {u : Utterance}

theorem symm (h : Agree v size k k' us us') : Agree v size k' k us' us :=
  ⟨h.onBoard', h.onBoard, h.mirrors.symm⟩

/-- A command is taken in. -/
theorem hear (h : Agree v size k k' (u :: us) us') : Agree v size (k.perform true u) k' us us' :=
  ⟨h.onBoard.perform true u, h.onBoard', h.mirrors⟩

/-- A command is made, and is then on its way to the other device. -/
theorem issue (h : Agree v size k k' us us') (hs : 0 < size) (hu : Passes v u us) :
    Agree v size (k.perform false u) k' us (us' ++ [u]) := by
  refine ⟨h.onBoard.perform false u, h.onBoard', ?_⟩
  rw [replay_perform h.onBoard hu, Crew.replay, Crew.replay, List.foldl_append]
  exact h.mirrors.perform (h.onBoard.replay us) (h.onBoard'.replay us') hs u

/-- Commands are made, one after the other. -/
theorem issueAll {new : List Utterance} (h : Agree v size k k' us us') (hs : 0 < size)
    (hnew : ∀ u ∈ new, Passes v u us) : Agree v size (k.issue new) k' us (us' ++ new) := by
  induction new generalizing k us' with
  | nil => rwa [List.append_nil]
  | cons u new ih =>
    rw [List.forall_mem_cons] at hnew
    rw [← List.singleton_append, ← List.append_assoc]
    exact ih (h.issue hs hnew.1) hnew.2

end Agree

end Crew

/-! ## Commands on their way -/

namespace Link

/-- The commands that are on their way to the device. -/
def told (l : Link) (role : Role) : List Utterance :=
  (l.inbox role).filterMap fun text => (Message.decode? text).bind Message.utterance?

/-- A static command is on its way to one device, and a command to the other one. -/
def crosses (v : Vocabulary) (l : Link) : Bool :=
  [Role.master, .slave].any fun role =>
    (l.told role).any (fun u => v.isStatic u.1) && !(l.told role.peer).isEmpty

variable {v : Vocabulary} {l : Link}

/-- Where nothing crosses, nothing comes towards a static command that is on its way. -/
theorem told_peer_of_static (h : l.crosses v = false) {role : Role} {u : Utterance}
    (hu : u ∈ l.told role) (hs : v.isStatic u.1 = true) : l.told role.peer = [] := by
  have hrole : role ∈ [Role.master, .slave] := by cases role <;> simp
  have hc := List.any_eq_false.mp h role hrole
  rw [Bool.and_eq_true, not_and, List.any_eq_true, Bool.not_eq_true', Bool.not_eq_false,
    List.isEmpty_iff] at hc
  exact hc ⟨u, hu, hs⟩

/-- Where nothing crosses, it does not matter what comes first of what is on its way in one
direction and what is on its way in the other. -/
theorem passes_of_not_crosses (h : l.crosses v = false) (role : Role) :
    ∀ u ∈ l.told role.peer, Crew.Passes v u (l.told role) := by
  intro u hu
  by_cases hempty : l.told role = []
  · exact Or.inl hempty
  · refine Or.inr ⟨?_, fun w hw => ?_⟩
    · refine Bool.eq_false_iff.mpr fun hs => hempty ?_
      have hpeer := told_peer_of_static h hu hs
      rwa [Role.peer_peer] at hpeer
    · refine Bool.eq_false_iff.mpr fun hs => ?_
      rw [told_peer_of_static h hw hs] at hu
      cases hu

theorem told_sendAll_self (l : Link) (role : Role) (ms : List Message) :
    (l.sendAll role ms).told role = l.told role := by
  rw [told, inbox_sendAll_self, told]

/-- Commands that scripts can hold are on their way as they were sent. -/
theorem told_sendAll_peer (hv : v.check = .ok ()) (l : Link) (role : Role) {ms : List Message}
    (h : ∀ u ∈ ms.filterMap Message.utterance?, v.Speaks u.1 u.2) :
    (l.sendAll role ms).told role.peer =
      l.told role.peer ++ ms.filterMap Message.utterance? := by
  have hdecode : ∀ m ∈ ms, (Message.decode? m.encode).bind Message.utterance? = m.utterance? := by
    intro m hm
    rw [Message.decode?_encode hv fun name args hmsg =>
      h (name, args) (List.mem_filterMap.mpr ⟨m, hm, by rw [hmsg]; rfl⟩)]
    rfl
  rw [told, inbox_sendAll_peer, List.filterMap_append, List.filterMap_map]
  exact congrArg (l.told role.peer ++ ·) (List.filterMap_congr hdecode)

end Link

/-! ## Sessions -/

namespace Session

variable {α : Type}

/-- The avatars of the device. -/
def crew (s : Session α) : Crew α := ⟨s.exec.own, s.exec.rival⟩

/-- What the messages after an operation tell of. -/
theorem utterances_after (s : Session α) (t : Turn α) :
    (s.after t).messages.filterMap Message.utterance? = t.told := by
  have hsee : ∀ d : Deed, ((d.effect?.bind Effect.message?).bind Message.utterance?) =
      utteranceWatch.see d := by
    intro d
    cases d with
    | effect e => cases e <;> rfl
    | tick | event => rfl
  simp only [SessionTurn.messages, after, Turn.effects, Turn.told, Turn.seen,
    Array.toList_filterMap, List.filterMap_filterMap, ← hsee, Option.bind_assoc]

/-- The commands of the working script are of the vocabulary. -/
def Speaks (v : Vocabulary) (s : Session α) : Prop :=
  ∀ script, s.store.working = some script → script.Gives fun u => v.Speaks u.1 u.2

variable {v : Vocabulary} {s : Session α}

/-- A script that a session lends speaks the vocabulary. -/
theorem gives_lend (h : s.Speaks v) : s.lend.script.Gives fun u => v.Speaks u.1 u.2 := by
  unfold lend
  cases hw : s.store.working with
  | none => exact fun _ _ _ ht => nomatch ht
  | some script => exact h script hw

/-- A turn that leaves the script as it is leaves it in the vocabulary. -/
theorem speaks_after (h : s.Speaks v) {t : Turn α}
    (ht : t.script.clearRunning = s.lend.script.clearRunning) : (s.after t).session.Speaks v := by
  intro script hw
  obtain ⟨_, -, rfl⟩ := Option.map_eq_some_iff.mp hw
  exact (gives_lend h).congr ht

/-- What a session does for a message that is no command plays its script. -/
theorem plays_receiving [Avatar α] (h : s.Speaks v) {m : Message} (hm : m.utterance? = none) :
    Turn.Plays (fun u => v.Speaks u.1 u.2) s.lend (s.receiving m) := by
  cases m with
  | command => cases hm
  | unlock => exact s.lend.plays_afterRelease
  | finish => exact s.lend.plays_afterPeerEnd
  | run =>
    unfold receiving
    dsimp only
    split
    · exact Turn.plays_run (gives_lend h)
    · exact .refl _

theorem plays_updating [Avatar α] (h : s.Speaks v) (dt : Float32) :
    Turn.Plays (fun u => v.Speaks u.1 u.2) s.lend (s.updating dt) := by
  unfold updating
  split
  · exact Turn.plays_update (gives_lend h) dt
  · exact .refl _

theorem plays_asking [Avatar α] (h : s.Speaks v) :
    Turn.Plays (fun u => v.Speaks u.1 u.2) s.lend s.asking := by
  unfold asking
  split
  · exact Turn.plays_startTogether (gives_lend h)
  · exact .refl _

end Session

/-! ## Pairs -/

namespace Pair

section Taking

variable {α : Type}

/-- The pair with other texts on their way to the session of that role. -/
def withInbox (p : Pair α) (role : Role) (texts : List String) : Pair α :=
  { p with link := p.link.setInbox role texts }

theorem withInbox_self (p : Pair α) (role : Role) : p.withInbox role (p.link.inbox role) = p := by
  cases role <;> rfl

theorem session_withInbox (p : Pair α) (role : Role) (texts : List String) (role' : Role) :
    (p.withInbox role texts).session role' = p.session role' := by
  cases role <;> rfl

/-- The first text in an inbox is what its device is told next, if it is a command. -/
theorem told_withInbox {p : Pair α} {role : Role} {text : String} {rest : List String}
    (h : p.link.inbox role = text :: rest) : p.link.told role =
      ((Message.decode? text).bind Message.utterance?).toList ++
        (p.withInbox role rest).link.told role := by
  rw [Link.told, h, Link.told, withInbox, Link.inbox_setInbox_self, List.filterMap_cons]
  cases (Message.decode? text).bind Message.utterance? <;> rfl

theorem told_withInbox_peer (p : Pair α) (role : Role) (texts : List String) :
    (p.withInbox role texts).link.told role.peer = p.link.told role.peer := by
  rw [Link.told, withInbox, Link.inbox_setInbox_peer, Link.told]

theorem withInbox_withInbox (p : Pair α) (role : Role) (texts texts' : List String) :
    (p.withInbox role texts).withInbox role texts' = p.withInbox role texts' := by
  cases role <;> rfl

variable [Avatar α]

/-- The session of that role takes in the first text that is on its way to it. A text that stands
for no message is dropped. -/
def takeIn (p : Pair α) (role : Role) : Pair α :=
  match p.link.inbox role with
  | [] => p
  | text :: rest =>
    match Message.decode? text with
    | some m => (p.withInbox role rest).receive role m
    | none => p.withInbox role rest

/-- The session of that role takes in so many texts, one after the other. -/
def takeInMany (p : Pair α) (role : Role) : Nat → Pair α
  | 0 => p
  | n + 1 => (p.takeIn role).takeInMany role n

/-- The pair before and after each of so many texts that the session of that role takes in. -/
def takings (p : Pair α) (role : Role) : Nat → List (Pair α)
  | 0 => [p]
  | n + 1 => p :: (p.takeIn role).takings role n

theorem mem_takings (p : Pair α) (role : Role) : ∀ n, p ∈ p.takings role n
  | 0 => List.mem_singleton_self p
  | _ + 1 => List.mem_cons_self

/-- What a session does about a message does not depend on what else is on its way to it. -/
theorem receive_withInbox (p : Pair α) (role : Role) (texts : List String) (m : Message) :
    (p.withInbox role texts).receive role m = (p.receive role m).withInbox role texts := by
  cases role <;> rfl

/-- To receive messages does not touch the inbox. -/
theorem foldl_receive_withInbox (role : Role) (texts : List String) : ∀ (ms : List Message)
    (p : Pair α), ms.foldl (fun p m => p.receive role m) (p.withInbox role texts) =
      (ms.foldl (fun p m => p.receive role m) p).withInbox role texts
  | [], _ => rfl
  | m :: ms, p => by
    rw [List.foldl_cons, receive_withInbox, foldl_receive_withInbox role texts ms, List.foldl_cons]

/-- To take in all texts is to receive the messages that can be decoded. -/
theorem takeInMany_withInbox (role : Role) : ∀ (texts : List String) (p : Pair α),
    (p.withInbox role texts).takeInMany role texts.length =
      ((texts.filterMap Message.decode?).foldl (fun p m => p.receive role m) p).withInbox role []
  | [], p => rfl
  | text :: texts, p => by
    have hinbox : (p.withInbox role (text :: texts)).link.inbox role = text :: texts :=
      p.link.inbox_setInbox_self role _
    rw [List.length_cons, takeInMany, takeIn, hinbox]
    dsimp only
    cases hd : Message.decode? text with
    | none =>
      rw [List.filterMap_cons_none hd, withInbox_withInbox]
      exact takeInMany_withInbox role texts p
    | some m =>
      rw [List.filterMap_cons_some hd, withInbox_withInbox]
      dsimp only
      rw [receive_withInbox]
      exact takeInMany_withInbox role texts (p.receive role m)

/-- To take in everything at once is to take in one text after the other. -/
theorem deliver_eq (p : Pair α) (role : Role) :
    p.deliver role = p.takeInMany role (p.link.pending role) := by
  have h := takeInMany_withInbox role (p.link.inbox role) p
  rw [withInbox_self, ← foldl_receive_withInbox] at h
  exact h.symm

end Taking

/-- The rivals of the pair mirror its avatars once everything that is on its way is taken in, and
the scripts of both devices are of the vocabulary. -/
structure Mirrored (v : Vocabulary) (size : Int) (p : Pair GridAvatar) : Prop where
  agree : ∀ role : Role, Crew.Agree v size (p.session role).crew (p.session role.peer).crew
    (p.link.told role) (p.link.told role.peer)
  speaks : ∀ role : Role, (p.session role).Speaks v

variable {v : Vocabulary} {size : Int} {p : Pair GridAvatar} {role : Role}

/-- The two devices agree, whichever of them is looked at. -/
theorem agree_of_role (role : Role)
    (h : Crew.Agree v size (p.session role).crew (p.session role.peer).crew (p.link.told role)
      (p.link.told role.peer)) (role' : Role) :
    Crew.Agree v size (p.session role').crew (p.session role'.peer).crew (p.link.told role')
      (p.link.told role'.peer) := by
  obtain rfl | rfl := role'.eq_or_eq_peer role
  · exact h
  · rw [Role.peer_peer]
    exact h.symm

section After

variable {α : Type}

theorem session_after_self (p : Pair α) (role : Role) (t : SessionTurn α) :
    (p.after role t).session role = t.session := by
  cases role <;> rfl

theorem session_after_peer (p : Pair α) (role : Role) (t : SessionTurn α) :
    (p.after role t).session role.peer = p.session role.peer := by
  cases role <;> rfl

theorem told_after_self (p : Pair α) (role : Role) (t : SessionTurn α) :
    (p.after role t).link.told role = p.link.told role :=
  p.link.told_sendAll_self role t.messages

/-- What a turn tells comes to the other device behind what is on its way already. -/
theorem told_after_peer (hv : v.check = .ok ()) (p : Pair α) (role : Role) {t : Turn α}
    (ht : ∀ u ∈ t.told, v.Speaks u.1 u.2) :
    (p.after role ((p.session role).after t)).link.told role.peer =
      p.link.told role.peer ++ t.told := by
  have hus := (p.session role).utterances_after t
  rw [← hus]
  exact p.link.told_sendAll_peer hv role (hus ▸ ht)

theorem speaks_after {p : Pair α} (h : ∀ role, (p.session role).Speaks v) {role : Role} {t : Turn α}
    (ht : t.script.clearRunning = (p.session role).lend.script.clearRunning) (role' : Role) :
    ((p.after role ((p.session role).after t)).session role').Speaks v := by
  obtain rfl | rfl := role'.eq_or_eq_peer role
  · rw [session_after_self]
    exact Session.speaks_after (h role') ht
  · rw [session_after_peer]
    exact h role.peer

end After

namespace Mirrored

/-- An operation on one session leaves the pair mirrored if the crew that it leaves agrees with the
other one, once that one has also taken in what the operation has told it. -/
theorem of_agree (hv : v.check = .ok ()) {t : Turn GridAvatar}
    (hspeaks : ∀ role, (p.session role).Speaks v)
    (hscript : t.script.clearRunning = (p.session role).lend.script.clearRunning)
    (htold : ∀ u ∈ t.told, v.Speaks u.1 u.2)
    (h : Crew.Agree v size t.crew (p.session role.peer).crew (p.link.told role)
      (p.link.told role.peer ++ t.told)) :
    (p.after role ((p.session role).after t)).Mirrored v size := by
  refine ⟨agree_of_role role ?_, speaks_after hspeaks hscript⟩
  rw [session_after_self, session_after_peer, told_after_self, told_after_peer hv _ _ htold]
  exact h

/-- An operation on one session makes commands, and does nothing else that the mirror is about. -/
theorem after_of_passes (h : p.Mirrored v size) (hv : v.check = .ok ()) (hs : 0 < size)
    {t : Turn GridAvatar} (ht : Turn.Plays (fun u => v.Speaks u.1 u.2) (p.session role).lend t)
    (hpass : ∀ u ∈ t.told, Crew.Passes v u (p.link.told role)) :
    (p.after role ((p.session role).after t)).Mirrored v size := by
  refine of_agree hv h.speaks ht.script (ht.forall_told nofun) ?_
  obtain ⟨us, htold, hcrew, -⟩ := ht.plays
  obtain rfl : t.told = us := htold
  rw [hcrew]
  exact (h.agree role).issueAll hs hpass

/-- Nothing goes wrong if no static command crosses one of the other device afterwards. -/
theorem after (h : p.Mirrored v size) (hv : v.check = .ok ()) (hs : 0 < size) {t : Turn GridAvatar}
    (ht : Turn.Plays (fun u => v.Speaks u.1 u.2) (p.session role).lend t)
    (hx : (p.after role ((p.session role).after t)).link.crosses v = false) :
    (p.after role ((p.session role).after t)).Mirrored v size := by
  refine h.after_of_passes hv hs ht fun u hu => ?_
  have hpass := Link.passes_of_not_crosses hx role u
  rw [told_after_self, told_after_peer hv _ _ (ht.forall_told nofun)] at hpass
  exact hpass (List.mem_append_right _ hu)

/-- A command is taken in, which was the first one on its way to the session. -/
theorem hear {u : Utterance} (hv : v.check = .ok ())
    (h : Crew.Agree v size (p.session role).crew (p.session role.peer).crew
      (u :: p.link.told role) (p.link.told role.peer))
    (hspeaks : ∀ role, (p.session role).Speaks v) :
    (p.receive role (.command u.1 u.2)).Mirrored v size := by
  have htold : ((p.session role).lend.dispatch u.1 u.2 true).1.told = [] :=
    (p.session role).lend.told_dispatch u.1 u.2 true
  have hscript := (p.session role).lend.script_dispatch u.1 u.2 true
  have hcrew := (p.session role).lend.crew_dispatch u.1 u.2 true
  refine of_agree hv hspeaks (congrArg Script.clearRunning hscript) (htold ▸ nofun) ?_
  rw [htold, hcrew, List.append_nil]
  exact .hear h

/-- A message that tells of no command is taken in. -/
theorem receive (h : p.Mirrored v size) (hv : v.check = .ok ()) (hs : 0 < size) {m : Message}
    (hm : m.utterance? = none) (hx : (p.receive role m).link.crosses v = false) :
    (p.receive role m).Mirrored v size := by
  have heq : p.after role ((p.session role).after ((p.session role).receiving m)) =
      p.receive role m := by
    rw [Session.after_receiving]
    rfl
  rw [← heq] at hx ⊢
  exact h.after hv hs (Session.plays_receiving (h.speaks role) hm) hx

/-- A text leaves the inbox, and it stands for no command. -/
theorem drop (h : p.Mirrored v size) {text : String} {rest : List String}
    (hin : p.link.inbox role = text :: rest)
    (hd : (Message.decode? text).bind Message.utterance? = none) :
    (p.withInbox role rest).Mirrored v size := by
  refine ⟨agree_of_role role ?_, fun role' =>
    session_withInbox p role rest role' ▸ h.speaks role'⟩
  have hagree := h.agree role
  rw [told_withInbox hin, hd] at hagree
  rw [session_withInbox, session_withInbox, told_withInbox_peer]
  exact hagree

/-- The first text on its way to the session is taken in. -/
theorem takeIn (h : p.Mirrored v size) (hv : v.check = .ok ()) (hs : 0 < size)
    (hx : (p.takeIn role).link.crosses v = false) : (p.takeIn role).Mirrored v size := by
  unfold Pair.takeIn at hx ⊢
  cases hin : p.link.inbox role with
  | nil => exact h
  | cons text rest =>
    rw [hin] at hx
    dsimp only at hx ⊢
    cases hd : Message.decode? text with
    | none => exact h.drop hin (by rw [hd]; rfl)
    | some m =>
      rw [hd] at hx
      dsimp only at hx ⊢
      -- A command is off its way and has done what was left to do for it; other messages may
      -- make the session issue commands of its own.
      cases hm : m.utterance? with
      | none => exact (h.drop hin (by rw [hd]; exact hm)).receive hv hs hm hx
      | some u =>
        obtain rfl := Message.eq_command_of_utterance? hm
        have hagree := h.agree role
        rw [told_withInbox hin, hd, Option.bind_some, hm] at hagree
        refine hear (p := p.withInbox role rest) hv ?_ fun role' =>
          session_withInbox p role rest role' ▸ h.speaks role'
        rw [session_withInbox, session_withInbox, told_withInbox_peer]
        exact hagree

/-- So many texts are taken in, one after the other. -/
theorem takeInMany (hv : v.check = .ok ()) (hs : 0 < size) : ∀ (n : Nat) {p : Pair GridAvatar},
    p.Mirrored v size → (∀ q ∈ p.takings role n, q.link.crosses v = false) →
      (p.takeInMany role n).Mirrored v size
  | 0, _, h, _ => h
  | n + 1, p, h, hx => by
    rw [takings, List.forall_mem_cons] at hx
    have hfirst := hx.2 (p.takeIn role) (mem_takings _ _ n)
    exact takeInMany hv hs n (h.takeIn hv hs hfirst) hx.2

end Mirrored

end Pair

end Tandem
