import Tandem.Sync
import Tandem.Decimal.Layout
import Tandem.Json.Writer

/-!
# What happens in a run

Everything that an executor decides is an event. An event has a level of importance, a
sentence that describes it, and a JSON object.
-/

namespace Tandem

/-- How important an event is. -/
inductive Level where
  | warn
  | info
  | debug
deriving DecidableEq, Repr

/-- The name of a level. -/
def Level.name : Level → String
  | warn => "WARN"
  | info => "INFO"
  | debug => "DEBUG"

/-- Something that happened in a run. Top-level commands are given by their index, and a
command is `remote` if it came from the other device. -/
inductive RunEvent where
  | runStarted (mode : SyncMode) (role : Role) (commands : Nat)
  /-- A run was asked for during a run. -/
  | runRejected
  /-- One tick was made. -/
  | tick (index : Nat) (command : String) (wait : Bool)
  /-- A command reached an avatar that understood it. -/
  | dispatched (command : String) (remote : Bool)
  /-- A command was dropped because its avatar is dead. -/
  | deadAvatar (command : String) (remote : Bool)
  /-- A command reached an avatar that did not understand it. -/
  | unrecognized (command : String) (remote : Bool)
  | waitingForPeer (index : Nat)
  | unlockSent
  | unlockReceived
  /-- The lock was held for too long and opened by itself. -/
  | lockTimeout (held : Float32)
  | completed
  | interrupted
  | finishSent
  | peerFinished
  /-- The run has ended, but that of the other device has not. -/
  | cleanupDeferred
  | cleanup
  | reset
deriving DecidableEq

namespace RunEvent

/-- How important the event is. -/
def level : RunEvent → Level
  | runRejected | deadAvatar .. | unrecognized .. | lockTimeout _ => .warn
  | runStarted .. | completed | interrupted | cleanup | reset => .info
  | _ => .debug

/-- The tag of the event in JSON. -/
def tag : RunEvent → String
  | runStarted .. => "run_started"
  | runRejected => "run_rejected"
  | tick .. => "tick"
  | dispatched .. => "dispatched"
  | deadAvatar .. => "dead_avatar"
  | unrecognized .. => "unrecognized"
  | waitingForPeer _ => "waiting_for_peer"
  | unlockSent => "unlock_sent"
  | unlockReceived => "unlock_received"
  | lockTimeout _ => "lock_timeout"
  | completed => "completed"
  | interrupted => "interrupted"
  | finishSent => "finish_sent"
  | peerFinished => "peer_finished"
  | cleanupDeferred => "cleanup_deferred"
  | cleanup => "cleanup"
  | reset => "reset"

/-- The line label of the top-level command of that index. -/
def lineLabel (index : Nat) : String :=
  "L" ++ (index + 1).repr

/-- The avatar of a command, inside a sentence. -/
def avatarWord (remote : Bool) : String :=
  if remote then "rival" else "local"

/-- The avatar of a command, at the start of a sentence. -/
def avatarWordCapital (remote : Bool) : String :=
  if remote then "Rival" else "Local"

/-- The sentence that describes the event. -/
def sentence : RunEvent → String
  | runStarted mode role commands =>
    "Run started as " ++ role.name ++ " in " ++ mode.name ++ " mode (" ++ commands.repr ++
      " commands)"
  | runRejected => "Run requested while already running, ignored"
  | tick index command wait =>
    lineLabel index ++ " " ++ command ++ (if wait then " (wait tick)" else "")
  | dispatched command remote =>
    "Dispatched " ++ command ++ " to " ++ avatarWord remote ++ " avatar"
  | deadAvatar command remote =>
    avatarWordCapital remote ++ " avatar is dead, dropped " ++ command
  | unrecognized command remote =>
    avatarWordCapital remote ++ " avatar did not understand " ++ command
  | waitingForPeer index => lineLabel index ++ " waiting for peer"
  | unlockSent => "Sent UNLOCK"
  | unlockReceived => "Received UNLOCK"
  | lockTimeout held =>
    "Peer lock held for " ++ Layout.twoPlaces held ++ ", force-released"
  | completed => "Run completed"
  | interrupted => "Run interrupted"
  | finishSent => "Sent FINISH"
  | peerFinished => "Peer finished"
  | cleanupDeferred => "Waiting for peer to finish before cleanup"
  | cleanup => "Run cleaned up"
  | reset => "Reset and cleared"

/-- The fields of the event in JSON, its tag aside. -/
def jsonFields : RunEvent → List (String × String)
  | runStarted mode role commands =>
    [("mode", Json.writeString mode.name), ("role", Json.writeString role.name),
      ("commands", commands.repr)]
  | tick index command wait =>
    [("index", index.repr), ("command", Json.writeString command),
      ("wait", Json.writeBool wait)]
  | dispatched command remote | deadAvatar command remote | unrecognized command remote =>
    [("command", Json.writeString command), ("remote", Json.writeBool remote)]
  | waitingForPeer index => [("index", index.repr)]
  | lockTimeout held => [("held", Layout.json held)]
  | _ => []

/-- The event as a JSON object. -/
def json (e : RunEvent) : String :=
  Json.writeObject (("event", Json.writeString e.tag) :: e.jsonFields)

end RunEvent

end Tandem
