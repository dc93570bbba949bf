import Tandem.Direction
import Tandem.Text.Quoted
import Tandem.Text.Lines

/-!
# Vocabularies

A vocabulary declares the commands that an avatar understands: for each its name, the kind of
argument it takes, whether it takes part in the synchronisation of the pair, and whether it
applies to both avatars whoever issues it. It also names the command that waits.

`Vocabulary.check` says whether a vocabulary can be used, and if not, what is wrong with it
first.
-/

namespace Tandem

/-- The name of the loop block in scripts, which no command may have. -/
def loopName : String := "LOOP"

/-- The names of the control signals between devices, which no command may have. -/
def signalNames : List String := ["FINISH", "UNLOCK", "RUN"]

/-- The kind of argument that a command takes. -/
inductive ArgKind where
  | none
  | number
  | direction
deriving DecidableEq, Repr

namespace ArgKind

/-- One ASCII digit or more, and nothing else. -/
def isDigits (cs : List Char) : Bool :=
  !cs.isEmpty && cs.all Char.isDigit

/-- A number without a sign: ASCII digits, with ASCII digits behind a point if there is one. -/
def isNumber (cs : List Char) : Bool :=
  match Text.pieces '.' cs with
  | [whole] => isDigits whole
  | [whole, fraction] => isDigits whole && isDigits fraction
  | _ => false

/-- Whether the kind takes these arguments. -/
def accepts : ArgKind → List String → Bool
  | none, args => args.isEmpty
  | number, [arg] => isNumber arg.toList
  | direction, [arg] => (Direction.ofName? arg).isSome
  | _, _ => false

/-- The name of the kind. -/
def name : ArgKind → String
  | none => "none"
  | number => "number"
  | direction => "direction"

/-- All kinds by their names. -/
def choices : List (String × ArgKind) :=
  [none, number, direction].map fun k => (k.name, k)

end ArgKind

/-- The declaration of one command. -/
structure Declaration where
  name : String
  arg : ArgKind
  /-- Takes part in the synchronisation of the pair. -/
  lock : Bool
  /-- Applies to both avatars, whichever side issues it. -/
  isStatic : Bool
deriving DecidableEq, Repr

/-- The commands that an avatar understands, and the name of the one that waits. -/
structure Vocabulary where
  commands : List Declaration
  waitCommand : String
deriving DecidableEq, Repr

/-- What makes a vocabulary unusable. -/
inductive VocabularyError where
  | noCommands
  | invalidName (name : String)
  | reservedName (name : String)
  | duplicateName (name : String)
  | waitTakesNoNumber (name : String)
  | waitUndeclared (name : String)
deriving DecidableEq, Repr

/-- The message that an unusable vocabulary is reported with. -/
def VocabularyError.message : VocabularyError → String
  | noCommands => "Vocabulary must declare at least one command"
  | invalidName name => "Invalid command name " ++ Text.quoted name
  | reservedName name => "Command name " ++ Text.quoted name ++ " is reserved"
  | duplicateName name => "Duplicate command " ++ Text.quoted name
  | waitTakesNoNumber name => "Wait command " ++ Text.quoted name ++ " must take a number"
  | waitUndeclared name => "Wait command " ++ Text.quoted name ++ " is not declared"

namespace Vocabulary

/-- The declaration of the named command, the first one if there are several. -/
def find? (v : Vocabulary) (name : String) : Option Declaration :=
  v.commands.find? fun spec => spec.name = name

/-- The named command is declared to take part in the synchronisation. -/
def isLock (v : Vocabulary) (name : String) : Bool :=
  (v.find? name).any (·.lock)

/-- The named command is declared to apply to both avatars. -/
def isStatic (v : Vocabulary) (name : String) : Bool :=
  (v.find? name).any (·.isStatic)

/-- The name is that of the command that waits. -/
def isWait (v : Vocabulary) (name : String) : Bool :=
  name = v.waitCommand

/-- The named command is declared, and takes these arguments. -/
def understands (v : Vocabulary) (name : String) (args : List String) : Bool :=
  (v.find? name).any (·.arg.accepts args)

/-- The names of the commands that take a direction. -/
def directionNames (v : Vocabulary) : List String :=
  (v.commands.filter (·.arg = .direction)).map (·.name)

/-- A character that ends a name in a script or in a message between devices. -/
def isNameBreaker (c : Char) : Bool :=
  c = '|' || c = ',' || c = '(' || c = ')' || c = ';' || c = ' '

/-- The name of a control signal between devices. -/
def isSignalName (name : String) : Bool :=
  signalNames.contains name

/-- A name that no command may have: that of the loop block or of a control signal. -/
def isReserved (name : String) : Bool :=
  name = loopName || isSignalName name

/-- Whether a declaration can follow the declarations of the `earlier` names. -/
def checkName (earlier : List String) (name : String) : Except VocabularyError Unit :=
  if name = "" ∨ name.toList.any isNameBreaker = true then .error (.invalidName name)
  else if isReserved name then .error (.reservedName name)
  else if name ∈ earlier then .error (.duplicateName name)
  else .ok ()

/-- Whether declarations of the names can follow those of the `earlier` ones. -/
def checkNames : List String → List String → Except VocabularyError Unit
  | _, [] => .ok ()
  | earlier, name :: names =>
    match checkName earlier name with
    | .error e => .error e
    | .ok () => checkNames (name :: earlier) names

/-- Whether the command that waits is declared, and takes a number. -/
def checkWait (v : Vocabulary) : Except VocabularyError Unit :=
  match v.find? v.waitCommand with
  | none => .error (.waitUndeclared v.waitCommand)
  | some spec =>
    if spec.arg = .number then .ok () else .error (.waitTakesNoNumber v.waitCommand)

/-- Whether the vocabulary can be used: it declares commands under good names of their own,
and the command that waits is one of them and takes a number. -/
def check (v : Vocabulary) : Except VocabularyError Unit :=
  if v.commands.isEmpty then .error .noCommands
  else
    match checkNames [] (v.commands.map (·.name)) with
    | .error e => .error e
    | .ok () => v.checkWait

/-- The vocabulary of the grid avatar. -/
def standard : Vocabulary where
  commands :=
    ⟨"MOVE", .direction, true, false⟩ ::
    ⟨"Continue_Sec", .number, true, false⟩ ::
    ⟨"RESET", .none, false, true⟩ ::
    ["Start_Engine", "Stop_Engine", "Climb_Up", "Fall_Down", "Turn_Left", "Turn_Right",
      "Move_Forward", "Move_Backward"].map fun name => ⟨name, .none, true, false⟩
  waitCommand := "Continue_Sec"

/-- A declaration is found under its own name. -/
theorem name_of_find? {v : Vocabulary} {name : String} {spec : Declaration}
    (h : v.find? name = some spec) : spec.name = name := by
  simpa using List.find?_some h

end Vocabulary

end Tandem
