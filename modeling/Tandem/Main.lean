import Std.Time.DateTime.Timestamp
import Tandem.CommandLine
import Tandem.Host.Path

/-!
The program: it answers the command line on the machine that it runs on.
-/

namespace Tandem

/-- The machine's words for a failure, with its number, whose sign does not matter. -/
def machineWords (code : UInt32) (details : String) : String :=
  details.capitalize ++ " (os error " ++ code.toInt32.toInt.natAbs.repr ++ ")"

/-- The reason for a failure of the machine. -/
def FileError.ofMachine : IO.Error → FileError
  | .noFileOrDirectory .. | .noSuchThing .. => .notFound
  | .inappropriateType _ code details | .permissionDenied _ code details
  | .resourceExhausted _ code details | .invalidArgument _ code details =>
    match code.toInt32.toInt.natAbs with
    | 20 => .notDirectory
    | 21 => .isDirectory
    | 36 => .nameTooLong
    | _ => .other (machineWords code details)
  | e => .other (toString e)

/-- Does the work on the file at the path, and turns a failure into a value. -/
def attempt {α : Type} (path : String) (work : IO α) : IO (Except FileError α) := do
  match FilePath.fault? path with
  | some e => pure (.error e)
  | none =>
    match ← work.toBaseIO with
    | .ok a => pure (.ok a)
    | .error e => pure (.error (.ofMachine e))

/-- Appends the text to the file at the path. -/
def appendToFile (path text : String) : IO (Except FileError Unit) :=
  attempt path do
    let file ← IO.FS.Handle.mk path .append
    file.putStr text
    file.flush

instance : Host IO where
  readText path := do
    match ← attempt path (IO.FS.readBinFile path) with
    | .error e => pure (.error e)
    | .ok bytes =>
      match String.fromUTF8? bytes with
      | some text => pure (.ok text)
      | none => pure (.error .notText)
  openLog path := appendToFile path ""
  appendText := appendToFile
  now := do
    let time ← Std.Time.Timestamp.now
    pure time.toMillisecondsSinceUnixEpoch.val.toNat

end Tandem

/-- Prints the answer to the command line. -/
def main (args : List String) : IO UInt32 := do
  let outcome ← (Tandem.CommandLine.run args : IO Tandem.Outcome)
  IO.print outcome.out
  IO.eprint outcome.err
  pure outcome.code
