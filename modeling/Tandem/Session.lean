import Tandem.Script.Randomize
import Tandem.Script.Reading
import Tandem.Script.Writing
import Tandem.Run.Executor
import Tandem.Config
import Tandem.Host

/-!
# Sessions

A session is what a device is made of: a script store, the vocabulary that scripts are read
with, and an executor, to which the store lends its working script. It starts runs, lets time
pass, and takes in the messages of the other device.

Without a script nothing can be run, but what the other device sends is still taken in: its
commands move the rival, and its end cleans up what a run has left behind.
-/

namespace Tandem

/-- The session of a device. -/
structure Session (α : Type) where
  /-- The commands that scripts are read with. -/
  vocabulary : Vocabulary
  store : ScriptStore
  exec : Executor α
  /-- The name of the stage that was loaded last. -/
  stage : Option String
  /-- The lines left out of the script that was loaded last. -/
  omissions : List Omission

/-- A session after an operation, with what the operation did to the world. -/
structure SessionTurn (α : Type) where
  session : Session α
  effects : Array Effect

/-- The messages sent, in order. -/
def SessionTurn.messages {α : Type} (t : SessionTurn α) : List Message :=
  t.effects.toList.filterMap Effect.message?

namespace Session

variable {α : Type}

/-- A session without a script. -/
def new (vocabulary : Vocabulary) (exec : Executor α) : Session α :=
  ⟨vocabulary, .empty, exec, none, []⟩

/-- The role of the device. -/
def role (s : Session α) : Role := s.exec.policy.role

/-- A run is in progress. -/
def isRunning (s : Session α) : Bool := s.exec.isRunning

/-- No run is in progress, and none has left anything behind. -/
def isIdle (s : Session α) : Bool := s.exec.phase = .idle

/-- Nothing happens. -/
def still (s : Session α) : SessionTurn α := ⟨s, #[]⟩

/-- The executor at work on the working script, or on an empty one if nothing is loaded. -/
def lend (s : Session α) : Turn α :=
  s.exec.on (s.store.working.getD .empty)

/-- The session after its executor's work. -/
def after (s : Session α) (t : Turn α) : SessionTurn α :=
  ⟨{ s with exec := t.exec, store := s.store.update t.script }, t.effects⟩

/-- The executor does the work, which also has a result. -/
def work {β : Type} (s : Session α) (f : Turn α → Turn α × β) : SessionTurn α × β :=
  let (t, result) := f s.lend
  (s.after t, result)

/-- The executor does the work. -/
def act (s : Session α) (f : Turn α → Turn α) : SessionTurn α :=
  s.after (f s.lend)

/-- The events kept, and the session without them. -/
def drain (s : Session α) : List RunEvent × Session α :=
  let (events, exec) := s.exec.drain
  (events, { s with exec := exec })

/-! ## Running -/

/-- Any run is given up, and the other device is not told. -/
def abandon (s : Session α) : SessionTurn α :=
  s.act Turn.abandon

/-- The run is stopped. Without a run, nothing happens. -/
def interrupt (s : Session α) : SessionTurn α :=
  s.act Turn.interrupt

/-- The other device is asked to run, and a run is started. It is refused without a script and
during a run. Also says whether a run was started. -/
def startTogether [Avatar α] (s : Session α) : SessionTurn α × Bool :=
  if s.store.isLoaded then s.work Turn.startTogether else (s.still, false)

/-- A stretch of time passes. Without a script, nothing happens. -/
def update [Avatar α] (s : Session α) (dt : Float32) : SessionTurn α :=
  if s.store.isLoaded then s.act (·.update dt) else s.still

/-- A message of the other device is taken in. -/
def receive [Avatar α] (s : Session α) : Message → SessionTurn α
  | .command name args => s.act fun t => (t.dispatch name args true).1
  | .unlock => s.act Turn.afterRelease
  | .finish => s.act Turn.afterPeerEnd
  | .run => if s.store.isLoaded then s.act fun t => t.run.1 else s.still

/-! ## Scripts -/

/-- The script becomes the working one, and its reference copy. -/
def install (s : Session α) (read : ScriptText) : Session α :=
  { s with store := s.store.load read.script, omissions := read.omissions }

/-- The script in the text is loaded, and any run is given up. -/
def loadText (s : Session α) (text : String) : SessionTurn α :=
  let t := s.abandon
  { t with session := t.session.install (Script.ofText s.vocabulary text) }

/-- The session without a script, in the stage of that name. -/
def enter (s : Session α) (stage : String) : Session α :=
  { s with stage := some stage, store := s.store.unload, omissions := [] }

/-- The script of the stage for the device's role is loaded, and any run is given up. The
paths of scripts are meant from the base directory. Without such a script nothing is loaded,
which is fine if the stage has none for the role. Also says how many lines were left out, if
the script could be read. -/
def loadStage {m : Type → Type} [Monad m] [Host m] (s : Session α) (stage : Stage)
    (base : String) : m (SessionTurn α × Option Nat) := do
  let t := s.abandon
  let entered := { t with session := t.session.enter stage.name }
  match stage.scriptFor s.role with
  | none => pure (entered, some 0)
  | some path =>
    match ← Host.readText (FilePath.join base path) with
    | .error _ => pure (entered, none)
    | .ok text =>
      let read := Script.ofText s.vocabulary text
      pure ({ entered with session := entered.session.install read }, some read.omissions.length)

/-- The working script in that style, or nothing if none is loaded. -/
def render (s : Session α) (style : Style) : String :=
  (s.store.working.map fun script => script.text style).getD ""

/-- Directions are drawn for the working script, and any run is given up. Also says how many
leaves were changed. -/
def randomize {σ : Type} (s : Session α) (draw : σ → Direction × σ) (source : σ) :
    SessionTurn α × Nat :=
  let t := s.abandon
  let (store, changed) := t.session.store.randomize s.vocabulary draw source
  ({ t with session := { t.session with store := store } }, changed)

/-- The working script is again what was loaded, and any run is given up. -/
def restore (s : Session α) : SessionTurn α :=
  let t := s.abandon
  { t with session := { t.session with store := t.session.store.restore } }

end Session

end Tandem
