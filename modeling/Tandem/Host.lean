/-!
# The host

What the program needs of the machine it runs on: to read a text file, to append to a file, and
to tell the time. A `Host` provides them in a monad of its own, so that the program runs on the
machine as well as on a directory held in memory.
-/

namespace Tandem

/-- Why a file cannot be used. -/
inductive FileError where
  | notFound
  | isDirectory
  /-- What should be a directory on the way to the file is none. -/
  | notDirectory
  /-- The path or a name in it is longer than any can be. -/
  | nameTooLong
  /-- The path holds a NUL character, which no path may hold. -/
  | nulInPath
  /-- The file holds no text. -/
  | notText
  /-- Another reason, in the words of the machine. -/
  | other (words : String)
deriving DecidableEq, Repr

/-- The words for the reason. -/
def FileError.message : FileError → String
  | notFound => "No such file or directory (os error 2)"
  | isDirectory => "Is a directory (os error 21)"
  | notDirectory => "Not a directory (os error 20)"
  | nameTooLong => "File name too long (os error 36)"
  | nulInPath => "file name contained an unexpected NUL byte"
  | notText => "stream did not contain valid UTF-8"
  | other words => words

/-- What the program needs of the machine it runs on. -/
class Host (m : Type → Type) where
  /-- The text of the file at the path. -/
  readText : String → m (Except FileError String)
  /-- Makes sure that the file at the path is there to be appended to. -/
  openLog : String → m (Except FileError Unit)
  /-- Appends a text to the file at the path. -/
  appendText : String → String → m (Except FileError Unit)
  /-- The present time, in milliseconds since the beginning of 1970. -/
  now : m Nat

end Tandem
