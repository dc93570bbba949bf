/-!
# Writing JSON

Values are written without blanks, fields in the order given. Inside a string the quote, the
backslash and the control characters are escaped, and every other character stands for
itself.
-/

namespace Tandem.Json

/-- How a character is written inside a string. -/
def writtenChar (c : Char) : List Char :=
  match c with
  | '"' => ['\\', '"']
  | '\\' => ['\\', '\\']
  | '\n' => ['\\', 'n']
  | '\r' => ['\\', 'r']
  | '\t' => ['\\', 't']
  | '\x08' => ['\\', 'b']
  | '\x0c' => ['\\', 'f']
  | c =>
    if c.toNat < 0x20 then
      ['\\', 'u', '0', '0', Nat.digitChar (c.toNat / 16), Nat.digitChar (c.toNat % 16)]
    else [c]

/-- A string in JSON. -/
def writeString (s : String) : String :=
  String.ofList ('"' :: s.toList.flatMap writtenChar ++ ['"'])

/-- A truth value in JSON. -/
def writeBool (b : Bool) : String :=
  if b then "true" else "false"

/-- An array of written items. -/
def writeArray (items : List String) : String :=
  "[" ++ String.intercalate "," items ++ "]"

/-- An object of names and written values. -/
def writeObject (fields : List (String × String)) : String :=
  "\x7b" ++ String.intercalate "," (fields.map fun (name, value) =>
    writeString name ++ ":" ++ value) ++ "\x7d"

end Tandem.Json
