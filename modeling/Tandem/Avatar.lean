/-!
# Avatars

An avatar is what commands act on. A device has two: its own, and the rival, which replays what
the other device does. The executor knows nothing of the game: it asks an avatar which commands
take part in the synchronisation, which ones apply to both avatars, and whether it is alive,
and hands it one command at a time.
-/

namespace Tandem

/-- What an avatar does about a command. -/
structure Reaction (α : Type) where
  /-- The avatar afterwards. -/
  avatar : α
  /-- The avatar understood the command. -/
  understood : Bool
  /-- The avatar stops the run of the device. -/
  stopsRun : Bool

/-- What the executor asks of an avatar. -/
class Avatar (α : Type) where
  /-- The named command applies to both avatars, whoever issues it. -/
  isStatic : α → String → Bool
  /-- The named command takes part in the synchronisation. -/
  isLock : α → String → Bool
  isDead : α → Bool
  /-- The avatar is handed a command with its arguments. -/
  perform : α → String → List String → Reaction α

/-- Avatars for which the commands that take part in the synchronisation are always the same. -/
class Avatar.Steady (α : Type) [Avatar α] : Prop where
  isLock_perform : ∀ (a : α) (name : String) (args : List String) (other : String),
    Avatar.isLock (Avatar.perform a name args).avatar other = Avatar.isLock a other

end Tandem
