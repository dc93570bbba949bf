import Tandem.Host
import Tandem.Host.Path

/-!
# A directory in memory

A directory is a list of files with their contents, named by the parts of their paths. A
directory inside it is there as long as a file is in it. `Directory.Hosted` is the host whose
files are those of a directory; its time stands still.
-/

namespace Tandem

/-- The files of a directory and of the directories inside it. -/
structure Directory where
  files : List (List String × ByteArray)
  /-- The time, in milliseconds since the beginning of 1970. -/
  time : Nat

namespace Directory

/-- What a path leads to. -/
inductive Entry where
  | file (content : ByteArray)
  | directory
  | missing
  /-- Nothing, and nothing can be there, as the name is too long. -/
  | overlong

/-- What the parts lead to. -/
def entry (d : Directory) (parts : List String) : Entry :=
  match d.files.lookup parts with
  | some content => .file content
  | none =>
    if parts = [] ∨ d.files.any (fun f => parts.isPrefixOf f.1) then .directory
    else if parts.getLast?.any FilePath.isOverlong then .overlong
    else .missing

/-- The part stands for a directory that is there whatever the directory holds. -/
def isStep (part : String) : Bool :=
  part = "" || part = "." || part = ".."

/-- Why the parts lead to no file from outside the directory, where nothing but the directories
above it is known. -/
def outside (parts : List String) : FileError :=
  match parts.dropWhile isStep with
  | [] => .isDirectory
  | name :: _ => if FilePath.isOverlong name then .nameTooLong else .notFound

/-- The parts that a path leads to from the parts of a directory inside this one. Only the last
part of the path may be missing, and nothing leads to a file outside. -/
def resolve (d : Directory) : List String → List String → Except FileError (List String)
  | here, [] => .ok here
  | here, part :: rest =>
    match d.entry here with
    | .file _ => .error .notDirectory
    | .missing => .error .notFound
    | .overlong => .error .nameTooLong
    | .directory =>
      if part = "" ∨ part = "." then resolve d here rest
      else if part = ".." then
        if here = [] then .error (outside rest) else resolve d here.dropLast rest
      else resolve d (here ++ [part]) rest

/-- The parts that the parts of a path lead to. An empty part in front stands for the root. -/
def resolveParts (d : Directory) (parts : List String) : Except FileError (List String) :=
  if parts.head? = some "" then .error (outside parts) else d.resolve [] parts

/-- The parts that a path leads to. -/
def resolvePath (d : Directory) (path : String) : Except FileError (List String) :=
  match FilePath.fault? path with
  | some e => .error e
  | none => d.resolveParts (FilePath.parts path)

/-- The bytes of the file at the path. -/
def read (d : Directory) (path : String) : Except FileError ByteArray :=
  match d.resolvePath path with
  | .error e => .error e
  | .ok parts =>
    match d.entry parts with
    | .file content => .ok content
    | .directory => .error .isDirectory
    | .missing => .error .notFound
    | .overlong => .error .nameTooLong

/-- The text of the file at the path. -/
def readText (d : Directory) (path : String) : Except FileError String :=
  match d.read path with
  | .error e => .error e
  | .ok content =>
    match String.fromUTF8? content with
    | some s => .ok s
    | none => .error .notText

/-- Why the parts of a path that ends with a slash lead to no file that may be made. The path
is meant for a directory, whether there is one or not, so that only what stands in front of
the last name is looked up. -/
def slashFault (d : Directory) (parts : List String) : FileError :=
  let above := (parts.reverse.dropWhile (· = "")).tail.reverse
  match d.resolveParts (above ++ ["."]) with
  | .error e => e
  | .ok _ => .isDirectory

/-- The parts that a path to a file that may be made leads to. -/
def resolveNew (d : Directory) (path : String) : Except FileError (List String) :=
  match FilePath.fault? path with
  | some e => .error e
  | none =>
    let parts := FilePath.parts path
    if parts.getLast? = some "" then .error (d.slashFault parts) else d.resolveParts parts

/-- The directory after the text was appended to the file at the path, which is made if it is
missing. -/
def append (d : Directory) (path text : String) : Except FileError Directory :=
  match d.resolveNew path with
  | .error e => .error e
  | .ok parts =>
    match d.entry parts with
    | .directory => .error .isDirectory
    | .overlong => .error .nameTooLong
    | .file content =>
      let files := d.files.filter fun f => f.1 ≠ parts
      .ok { d with files := (parts, content ++ text.toUTF8) :: files }
    | .missing => .ok { d with files := (parts, text.toUTF8) :: d.files }

/-- What runs on a directory in memory. -/
abbrev Hosted := StateM Directory

/-- Appends to a file of the directory. -/
def appendHosted (path text : String) : Hosted (Except FileError Unit) := do
  match (← get).append path text with
  | .error e => pure (.error e)
  | .ok d =>
    set d
    pure (.ok ())

instance : Host Hosted where
  readText path := do pure ((← get).readText path)
  openLog path := appendHosted path ""
  appendText := appendHosted
  now := do pure (← get).time

end Directory

end Tandem
