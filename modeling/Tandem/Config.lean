import Tandem.Sync.Timings
import Tandem.Vocabulary
import Tandem.Text.Blank
import Tandem.Host.Path

/-!
# Configurations

A configuration says how a pair plays: the role of the device, the mode, the timings, the
vocabulary, the size of the board, and the stages. A stage is a task with a map, traps, and a
script for each role to start from. The paths of scripts are meant from the directory of the
configuration.
-/

namespace Tandem

/-- A stage that can be played. -/
structure Stage where
  name : String
  /-- The task as the players read it. -/
  problem : String
  /-- The name of the map. -/
  map : String
  masterScript : Option String
  slaveScript : Option String
  /-- The stage is played with arrow keys and not with scripts. -/
  arrowKeys : Bool
  developerPanel : Bool
  traps : List (Int × Int)
deriving DecidableEq, Repr

/-- The path of the script that the role starts from, if the stage has one. -/
def Stage.scriptFor (s : Stage) : Role → Option String
  | .master => s.masterScript
  | .slave => s.slaveScript

/-- How a pair plays. -/
structure Config where
  role : Role
  mode : SyncMode
  timings : Timings
  vocabulary : Vocabulary
  gridSize : Int
  stages : List Stage
  /-- The directory that the paths of scripts are meant from. -/
  baseDir : String
deriving DecidableEq

/-- What makes a configuration unusable. -/
inductive ConfigFault where
  | timings (e : TimingError)
  | vocabulary (e : VocabularyError)
  | gridSize
  | emptyStageName
  | duplicateStage (name : String)
deriving DecidableEq

/-- The message that an unusable configuration is reported with. -/
def ConfigFault.message : ConfigFault → String
  | timings e => e.message
  | vocabulary e => e.message
  | gridSize => "Grid size must be positive"
  | emptyStageName => "Stage name cannot be empty"
  | duplicateStage name => "Duplicate stage name: " ++ name

namespace Config

/-- The size of the board where no other is asked for. -/
def standardGridSize : Int := 6

/-- Whether stages of the names can follow those of the `earlier` ones. -/
def checkStages : List String → List String → Except ConfigFault Unit
  | _, [] => .ok ()
  | earlier, name :: names =>
    if Text.trim name.toList = [] then .error .emptyStageName
    else if name ∈ earlier then .error (.duplicateStage name)
    else checkStages (name :: earlier) names

/-- The configuration can be used. -/
def check (c : Config) : Except ConfigFault Unit :=
  match c.timings.check with
  | .error e => .error (.timings e)
  | .ok () =>
    match c.vocabulary.check with
    | .error e => .error (.vocabulary e)
    | .ok () =>
      if c.gridSize ≤ 0 then .error .gridSize
      else checkStages [] (c.stages.map (·.name))

/-- The stage of that name. -/
def stage? (c : Config) (name : String) : Option Stage :=
  c.stages.find? fun s => s.name = name

/-- The path of a script, as seen from where the configuration's own path is meant from. -/
def resolve (c : Config) (path : String) : String :=
  FilePath.join c.baseDir path

end Config

end Tandem
