import Tandem.Config
import Tandem.Decimal.Layout
import Tandem.Json.Writer

/-!
# Writing configurations

A configuration is written as a JSON object with all its fields, in the order in which they are
declared. The directory of the configuration is no part of it.
-/

namespace Tandem

/-- The timings as a JSON object. -/
def Timings.json (t : Timings) : String :=
  Json.writeObject [
    ("commandDelay", Layout.json t.commandDelay),
    ("smoothingDelay", Layout.json t.smoothingDelay),
    ("waitQuantum", Layout.json t.waitQuantum),
    ("stepTimeout", Layout.json t.stepTimeout),
    ("commandTimeout", Layout.json t.commandTimeout)]

/-- The declaration of a command as a JSON object. -/
def Declaration.json (c : Declaration) : String :=
  Json.writeObject [
    ("name", Json.writeString c.name),
    ("arg", Json.writeString c.arg.name),
    ("lock", Json.writeBool c.lock),
    ("static", Json.writeBool c.isStatic)]

/-- The vocabulary as a JSON object. -/
def Vocabulary.json (v : Vocabulary) : String :=
  Json.writeObject [
    ("commands", Json.writeArray (v.commands.map Declaration.json)),
    ("waitCommand", Json.writeString v.waitCommand)]

/-- A path as JSON, `null` if there is none. -/
def pathJson : Option String → String
  | some path => Json.writeString path
  | none => "null"

/-- A cell as a JSON array. -/
def cellJson (c : Int × Int) : String :=
  Json.writeArray [toString c.1, toString c.2]

/-- The stage as a JSON object. -/
def Stage.json (s : Stage) : String :=
  Json.writeObject [
    ("name", Json.writeString s.name),
    ("problem", Json.writeString s.problem),
    ("map", Json.writeString s.map),
    ("masterScript", pathJson s.masterScript),
    ("slaveScript", pathJson s.slaveScript),
    ("arrowKeys", Json.writeBool s.arrowKeys),
    ("developerPanel", Json.writeBool s.developerPanel),
    ("traps", Json.writeArray (s.traps.map cellJson))]

/-- The configuration as a JSON object. -/
def Config.json (c : Config) : String :=
  Json.writeObject [
    ("role", Json.writeString c.role.name),
    ("mode", Json.writeString c.mode.name),
    ("timings", c.timings.json),
    ("vocabulary", c.vocabulary.json),
    ("gridSize", toString c.gridSize),
    ("stages", Json.writeArray (c.stages.map Stage.json))]

end Tandem
