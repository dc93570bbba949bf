import Tandem.Proofs.Pair.Mirror

/-!
# Messages on their way

The texts that are on their way to a device stand for the messages that the other one has sent, as
long as these are signals or commands that scripts can hold (`Link.mail_sendAll_peer`). What a
device has sent is read off its deeds (`messageWatch`).
-/

namespace Tandem

namespace Link

/-- The messages that are on their way to the device. -/
def mail (l : Link) (role : Role) : List Message :=
  (l.inbox role).filterMap Message.decode?

/-- What a device sends does not come to itself. -/
theorem mail_sendAll_self (l : Link) (role : Role) (ms : List Message) :
    (l.sendAll role ms).mail role = l.mail role := by
  rw [mail, inbox_sendAll_self, mail]

/-- Signals, and commands that scripts can hold, are on their way as they were sent. -/
theorem mail_sendAll_peer {v : Vocabulary} (hv : v.check = .ok ()) (l : Link) (role : Role)
    {ms : List Message} (h : ∀ u ∈ ms.filterMap Message.utterance?, v.Speaks u.1 u.2) :
    (l.sendAll role ms).mail role.peer = l.mail role.peer ++ ms := by
  have hdecode : ∀ m ∈ ms, (Message.decode? ∘ Message.encode) m = some m := by
    intro m hm
    rw [Function.comp_apply]
    refine Message.decode?_encode hv fun name args hmsg => ?_
    have hutterance : m.utterance? = some (name, args) := by
      rw [hmsg]
      rfl
    exact h (name, args) (List.mem_filterMap.mpr ⟨m, hm, hutterance⟩)
  have hall : ms.filterMap (Message.decode? ∘ Message.encode) = ms := by
    rw [List.filterMap_congr hdecode, List.filterMap_some]
  rw [mail, inbox_sendAll_peer, List.filterMap_append, List.filterMap_map, hall, mail]

end Link

/-- The messages after an operation are those among its deeds. -/
theorem Session.messages_after {α : Type} (s : Session α) (t : Turn α) :
    (s.after t).messages = t.seen messageWatch := by
  have hsee : ∀ d : Deed, d.effect?.bind Effect.message? = messageWatch.see d := by
    intro d
    cases d with
    | effect e => cases e <;> rfl
    | tick | event => rfl
  simp only [SessionTurn.messages, after, Turn.effects, Turn.seen, Array.toList_filterMap,
    List.filterMap_filterMap, hsee]

namespace Pair

variable {α : Type} (p : Pair α) (role : Role)

/-- The first text in an inbox is the first piece of mail, if it can be decoded. -/
theorem mail_withInbox {text : String} {rest : List String}
    (h : p.link.inbox role = text :: rest) : p.link.mail role =
      (Message.decode? text).toList ++ (p.withInbox role rest).link.mail role := by
  rw [Link.mail, h, Link.mail, withInbox, Link.inbox_setInbox_self, List.filterMap_cons]
  cases Message.decode? text <;> rfl

theorem mail_withInbox_peer (texts : List String) :
    (p.withInbox role texts).link.mail role.peer = p.link.mail role.peer := by
  rw [Link.mail, withInbox, Link.inbox_setInbox_peer, Link.mail]

end Pair

end Tandem
