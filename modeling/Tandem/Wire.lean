import Tandem.Vocabulary

/-!
# Messages between devices

A device tells the other one of each command it makes, and of the control signals: it has
finished, it releases the other device, it asks for a run. A message travels as a name, a bar
and the arguments with commas between them; a signal has a name of its own and no arguments.
Nothing is escaped, so names and arguments must do without bars and commas.
-/

namespace Tandem

/-- A message from one device to the other. -/
inductive Message where
  /-- A command that the sender has made. -/
  | command (name : String) (args : List String)
  /-- The sender has ended its run. -/
  | finish
  /-- The sender releases the receiver. -/
  | unlock
  /-- The sender asks the receiver to run. -/
  | run
deriving DecidableEq, Repr

namespace Message

/-- The text that a message travels as. -/
def encode : Message → String
  | command name args => name ++ "|" ++ String.intercalate "," args
  | finish => "FINISH|"
  | unlock => "UNLOCK|"
  | run => "RUN|"

/-- The text without the line ends it ends with. -/
def dropLineEnds (cs : List Char) : List Char :=
  (cs.reverse.dropWhile fun c => c = '\r' || c = '\n').reverse

/-- The arguments in the text behind the bar. An empty text holds none. -/
def argsOfText (cs : List Char) : List String :=
  if cs = [] then [] else (Text.pieces ',' cs).map String.ofList

/-- The message of that name and with that text behind the bar. What stands behind the name of
a signal does not matter. -/
def ofParts? (name : String) (rest : List Char) : Option Message :=
  if name = "" then none
  else if name = "FINISH" then some finish
  else if name = "UNLOCK" then some unlock
  else if name = "RUN" then some run
  else some (command name (argsOfText rest))

/-- The message that a text stands for, if it names one. -/
def decode? (wire : String) : Option Message :=
  let cs := dropLineEnds wire.toList
  ofParts? (String.ofList (cs.takeWhile (· ≠ '|'))) ((cs.dropWhile (· ≠ '|')).drop 1)

end Message

end Tandem
