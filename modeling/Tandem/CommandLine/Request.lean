import Tandem.Sync
import Tandem.Decimal.Basic
import Tandem.Text.Quoted

/-!
# Requests

The words of a command line ask for one thing: to check a script, to simulate a pair, or to
tell the version or the usage. An option is a long name behind two dashes; its value follows
behind an equals sign or as the next word, which then must not look like an option itself.
Words are read from the left, and the first one that does not fit refuses the whole line.
-/

namespace Tandem

/-- What a simulation is asked to do. -/
structure SimulationRequest where
  master : Option String
  slave : Option String
  config : Option String
  stage : Option String
  mode : Option SyncMode
  timeStep : Float32
  maxTime : Float32
  log : Option String

/-- What a command line asks for. -/
inductive Request where
  | version
  | usage
  | check (script : String)
  | simulate (r : SimulationRequest)

/-- Why a command line is refused. -/
inductive UsageError where
  | noCommand
  | unknownCommand (word : String)
  | unexpected (word : String)
  | missingValue (option : String)
  | badValue (option value : String)
  | repeated (option : String)
  | missing (option : String)
  | conflict (option other : String)
deriving DecidableEq, Repr

/-- The message that a command line is refused with. -/
def UsageError.message : UsageError → String
  | noCommand => "a command is required"
  | unknownCommand word => "unrecognized command " ++ Text.quoted word
  | unexpected word => "unexpected argument " ++ Text.quoted word
  | missingValue option => "a value is required for --" ++ option
  | badValue option value => "invalid value " ++ Text.quoted value ++ " for --" ++ option
  | repeated option => "--" ++ option ++ " cannot be used multiple times"
  | missing option => "--" ++ option ++ " is required"
  | conflict option other => "--" ++ option ++ " cannot be used with --" ++ other

/-- What the value of an option must be. -/
inductive ValueKind where
  /-- A path, which is not empty. -/
  | path
  | text
  | mode
  | number
deriving DecidableEq, Repr

/-- The options that a command line gives, with their values, the last one first. -/
abbrev GivenOptions := List (String × String)

namespace Request

/-- The modes by the words that ask for them. -/
def modeWords : List (String × SyncMode) :=
  [("async", .async), ("step", .stepSwitching), ("cmd", .cmdSwitching)]

/-- The options of a check. -/
def checkOptions : List (String × ValueKind) := [("script", .path)]

/-- The options of a simulation. -/
def simulationOptions : List (String × ValueKind) := [
  ("master", .path), ("slave", .path), ("config", .path), ("stage", .text), ("mode", .mode),
  ("dt", .number), ("max-time", .number), ("log", .path)]

/-- The kind takes the value. -/
def accepts : ValueKind → String → Bool
  | .path, value => value ≠ ""
  | .text, _ => true
  | .mode, value => (modeWords.lookup value).isSome
  | .number, value => (readFloat32? value.toList).isSome

/-- The word is a group of short options that starts with this one. -/
def isShort (letter : Char) (word : String) : Bool :=
  ['-', letter].isPrefixOf word.toList

/-- The word asks for the usage. -/
def asksUsage (word : String) : Bool :=
  word = "--help" || isShort 'h' word

/-- The word asks for the version. -/
def asksVersion (word : String) : Bool :=
  word = "--version" || isShort 'V' word

/-- The word cannot be the value of the option in front of it. -/
def looksLikeOption (word : String) : Bool :=
  word ≠ "-" && word.toList.head? = some '-'

/-- The name of the option in a word, and the value behind an equals sign if there is one. -/
def optionOf? (word : String) : Option (String × Option String) :=
  match word.toList with
  | '-' :: '-' :: cs =>
    some (String.ofList (cs.takeWhile (· ≠ '=')),
      match cs.dropWhile (· ≠ '=') with
      | [] => none
      | _ :: value => some (String.ofList value))
  | _ => none

/-- The options with another one. -/
def give (known : List (String × ValueKind)) (given : GivenOptions) (name value : String) :
    Except UsageError GivenOptions :=
  match known.lookup name with
  | none => .error (.unexpected ("--" ++ name))
  | some kind =>
    if (given.lookup name).isSome then .error (.repeated name)
    else if accepts kind value then .ok ((name, value) :: given)
    else .error (.badValue name value)

/-- The options that the words give behind those given already, or nothing if the usage is
asked for. -/
def readOptions (known : List (String × ValueKind)) :
    GivenOptions → List String → Except UsageError (Option GivenOptions)
  | given, [] => .ok (some given)
  | given, word :: words =>
    if asksUsage word then .ok none
    else if word = "--" then
      match words with
      | [] => .ok (some given)
      | extra :: _ => .error (.unexpected extra)
    else
      match optionOf? word with
      | none => .error (.unexpected word)
      | some (name, some value) =>
        match give known given name value with
        | .error e => .error e
        | .ok given => readOptions known given words
      | some (name, none) =>
        match words with
        | [] => .error (.missingValue name)
        | value :: words =>
          if looksLikeOption value then .error (.missingValue name)
          else
            match give known given name value with
            | .error e => .error e
            | .ok given => readOptions known given words

/-- The check that the options ask for. -/
def ofCheckOptions (given : GivenOptions) : Except UsageError Request :=
  match given.lookup "script" with
  | some script => .ok (.check script)
  | none => .error (.missing "script")

/-- The number that an option gives. -/
def numberOption (given : GivenOptions) (name : String) (default : Float32) : Float32 :=
  ((given.lookup name).bind fun value => readFloat32? value.toList).getD default

/-- The simulation that the options ask for. A script of the master and one of the slave come
together, and exclude a configuration, which needs a stage. -/
def ofSimulationOptions (given : GivenOptions) : Except UsageError Request :=
  let master := given.lookup "master"
  let slave := given.lookup "slave"
  let config := given.lookup "config"
  let stage := given.lookup "stage"
  if master.isSome && config.isSome then .error (.conflict "master" "config")
  else if master.isSome && slave.isNone then .error (.missing "slave")
  else if slave.isSome && master.isNone && config.isNone then .error (.missing "master")
  else if config.isSome && stage.isNone then .error (.missing "stage")
  else
    .ok <| .simulate {
      master := master
      slave := slave
      config := config
      stage := stage
      mode := (given.lookup "mode").bind fun word => modeWords.lookup word
      timeStep := numberOption given "dt" 0.1
      maxTime := numberOption given "max-time" 300
      log := given.lookup "log" }

/-- What the options behind a command ask for. -/
def ofOptions (known : List (String × ValueKind))
    (request : GivenOptions → Except UsageError Request) (words : List String) :
    Except UsageError Request :=
  match readOptions known [] words with
  | .error e => .error e
  | .ok none => .ok .usage
  | .ok (some given) => request given

/-- The commands that a line may start with. -/
def commands : List String := ["check", "simulate", "help"]

/-- What the words behind the help command ask for: the usage of one command, or of all. -/
def ofHelpWords : List String → Except UsageError Request
  | [] => .ok .usage
  | word :: words =>
    if word ∉ commands then .error (.unknownCommand word)
    else
      match words with
      | [] => .ok .usage
      | extra :: _ => .error (.unknownCommand extra)

/-- What the words of a command line ask for. -/
def ofWords : List String → Except UsageError Request
  | [] => .error .noCommand
  | word :: words =>
    if asksUsage word then .ok .usage
    else if asksVersion word then .ok .version
    else if word = "check" then ofOptions checkOptions ofCheckOptions words
    else if word = "simulate" then ofOptions simulationOptions ofSimulationOptions words
    else if word = "help" then ofHelpWords words
    else if looksLikeOption word then .error (.unexpected word)
    else .error (.unknownCommand word)

end Request

end Tandem
