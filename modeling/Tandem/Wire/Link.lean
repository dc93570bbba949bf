import Tandem.Wire
import Tandem.Sync

/-!
# The link of a pair

The link between two devices keeps for each the texts that are on their way to it, in the
order in which they were sent. Nothing is lost and nothing overtakes.
-/

namespace Tandem

/-- The texts on their way to each device of a pair. -/
structure Link where
  toMaster : List String
  toSlave : List String
deriving DecidableEq, Repr

namespace Link

/-- Nothing is on its way. -/
def empty : Link := ⟨[], []⟩

/-- What is on its way to the device. -/
def inbox (l : Link) : Role → List String
  | .master => l.toMaster
  | .slave => l.toSlave

/-- The link with another inbox for the device. -/
def setInbox (l : Link) (role : Role) (texts : List String) : Link :=
  match role with
  | .master => { l with toMaster := texts }
  | .slave => { l with toSlave := texts }

/-- The device sends messages to its peer, one after the other. -/
def sendAll (l : Link) (sender : Role) (ms : List Message) : Link :=
  l.setInbox sender.peer (l.inbox sender.peer ++ ms.map Message.encode)

/-- The device sends a message to its peer. -/
def send (l : Link) (sender : Role) (m : Message) : Link :=
  l.sendAll sender [m]

/-- The device takes in everything on its way to it. A text that stands for no message is
dropped. -/
def drain (l : Link) (role : Role) : List Message × Link :=
  ((l.inbox role).filterMap Message.decode?, l.setInbox role [])

/-- The number of texts on their way to the device. -/
def pending (l : Link) (role : Role) : Nat :=
  (l.inbox role).length

theorem inbox_setInbox_self (l : Link) (role : Role) (texts : List String) :
    (l.setInbox role texts).inbox role = texts := by
  cases role <;> rfl

theorem inbox_setInbox_peer (l : Link) (role : Role) (texts : List String) :
    (l.setInbox role texts).inbox role.peer = l.inbox role.peer := by
  cases role <;> rfl

/-- What is sent comes last in the inbox of the other device. -/
theorem inbox_sendAll_peer (l : Link) (sender : Role) (ms : List Message) :
    (l.sendAll sender ms).inbox sender.peer =
      l.inbox sender.peer ++ ms.map Message.encode := by
  simp [sendAll, inbox_setInbox_self]

/-- The inbox of the sender is left as it is. -/
theorem inbox_sendAll_self (l : Link) (sender : Role) (ms : List Message) :
    (l.sendAll sender ms).inbox sender = l.inbox sender := by
  cases sender <;> rfl

end Link

end Tandem
