import Tandem.Host
import Tandem.Text.Lines

/-!
# File paths

A file path is a text whose parts are separated by slashes. Parts that are empty, and dots that
do not come first, say nothing. Paths and the names in them have a greatest length, which is
counted in bytes.
-/

namespace Tandem.FilePath

/-- The parts of a path, empty ones included. -/
def parts (path : String) : List String :=
  (Text.pieces '/' path.toList).map String.ofList

/-- A path has at most this many bytes. -/
def pathCap : Nat := 4095

/-- A name in a path has at most this many bytes. -/
def nameCap : Nat := 255

/-- Why the path leads nowhere, whatever files there are. -/
def fault? (path : String) : Option FileError :=
  if path.toList.contains '\x00' then some .nulInPath
  else if path = "" then some .notFound
  else if pathCap < path.utf8ByteSize then some .nameTooLong
  else none

/-- No file can have the name. -/
def isOverlong (name : String) : Bool :=
  nameCap < name.utf8ByteSize

/-- The path starts at the root. -/
def isAbsolute (path : String) : Bool :=
  path.toList.head? = some '/'

/-- The path as seen from the base directory. -/
def join (base path : String) : String :=
  if isAbsolute path || base = "" then path
  else if base.toList.getLast? = some '/' then base ++ path
  else base ++ "/" ++ path

/-- The parts in reverse order without the first ones that say nothing, as long as more than
`kept` parts are there. -/
def dropSilent (kept : Nat) : List String → List String
  | [] => []
  | part :: parts =>
    if kept < parts.length + 1 ∧ (part = "" ∨ part = ".") then dropSilent kept parts
    else part :: parts

/-- The directory that the named file is in. -/
def parent (path : String) : String :=
  let parts := (parts path).dropLast
  let kept := if parts.head? = some "" ∨ parts.head? = some "." then 1 else 0
  let parts := (dropSilent kept parts.reverse).reverse
  if parts = [""] then "/" else String.intercalate "/" parts

end Tandem.FilePath
