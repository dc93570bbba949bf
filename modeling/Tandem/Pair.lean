import Tandem.Session
import Tandem.Wire.Link

/-!
# Pairs

A pair is two sessions, a master and a slave, with the link between them. A step of a pair is
an operation on one of the sessions; the messages that the session sends are then on their way
to the other one, which takes them in when they are delivered.
-/

namespace Tandem

/-- Two sessions and the link between them. -/
structure Pair (α : Type) where
  master : Session α
  slave : Session α
  link : Link

namespace Pair

variable {α : Type}

/-- The session of that role. -/
def session (p : Pair α) : Role → Session α
  | .master => p.master
  | .slave => p.slave

/-- The pair with another session in that role. -/
def setSession (p : Pair α) (role : Role) (s : Session α) : Pair α :=
  match role with
  | .master => { p with master := s }
  | .slave => { p with slave := s }

/-- The pair after an operation on the session of that role. -/
def after (p : Pair α) (role : Role) (t : SessionTurn α) : Pair α :=
  { p.setSession role t.session with link := p.link.sendAll role t.messages }

/-- The session of that role loads the script in the text. -/
def loadText (p : Pair α) (role : Role) (text : String) : Pair α :=
  p.after role ((p.session role).loadText text)

/-- Nobody runs, and nothing is on its way. -/
def isSettled (p : Pair α) : Bool :=
  p.master.isIdle && p.link.pending .master == 0 &&
    (p.slave.isIdle && p.link.pending .slave == 0)

variable [Avatar α]

/-- The session of that role asks for a run. -/
def startTogether (p : Pair α) (role : Role) : Pair α :=
  p.after role (p.session role).startTogether.1

/-- A stretch of time passes for the session of that role. -/
def update (p : Pair α) (role : Role) (dt : Float32) : Pair α :=
  p.after role ((p.session role).update dt)

/-- The session of that role takes in a message. -/
def receive (p : Pair α) (role : Role) (m : Message) : Pair α :=
  p.after role ((p.session role).receive m)

/-- The session of that role takes in everything that is on its way to it. -/
def deliver (p : Pair α) (role : Role) : Pair α :=
  let (messages, link) := p.link.drain role
  messages.foldl (fun p m => p.receive role m) { p with link := link }

end Pair

end Tandem
