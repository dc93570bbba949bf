/-!
# Modes and roles of a pair

Two devices run a pair of scripts, one as the master and one as the slave. The mode says how
their runs are kept together: not at all, step by step in parallel, or command by command in
turns.
-/

namespace Tandem

/-- How the runs of a pair are kept together. -/
inductive SyncMode where
  | async
  | stepSwitching
  | cmdSwitching
deriving DecidableEq, Repr

namespace SyncMode

/-- The name of a mode. -/
def name : SyncMode → String
  | async => "async"
  | stepSwitching => "step_switching"
  | cmdSwitching => "cmd_switching"

/-- All modes by their names. -/
def choices : List (String × SyncMode) :=
  [async, stepSwitching, cmdSwitching].map fun m => (m.name, m)

end SyncMode

/-- Which device of a pair. -/
inductive Role where
  | master
  | slave
deriving DecidableEq, Repr

namespace Role

/-- The name of a role. -/
def name : Role → String
  | master => "master"
  | slave => "slave"

/-- All roles by their names. -/
def choices : List (String × Role) :=
  [master, slave].map fun r => (r.name, r)

/-- The other device of the pair. -/
def peer : Role → Role
  | master => slave
  | slave => master

@[simp] theorem peer_peer (r : Role) : r.peer.peer = r := by
  cases r <;> rfl

theorem peer_ne (r : Role) : r.peer ≠ r := by
  cases r <;> nofun

/-- There are no more than two roles. -/
theorem eq_or_eq_peer (q r : Role) : q = r ∨ q = r.peer := by
  cases q <;> cases r <;> simp [peer]

end Role

end Tandem
