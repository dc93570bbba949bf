/-!
# JSON values

A JSON value keeps what a reader of it may have to know. A number keeps the digits it was
written with, because a whole number written with a point is not a whole number to every
reader. A string may name half of a surrogate pair, which is no character: such a string is
well formed but has no text.
-/

namespace Tandem

namespace Json

/-- The text of a string literal, if its escapes name characters only. -/
abbrev Text := Option String

/-- A number as written: the digits in front of and behind the point, and the power of ten.
There is no point when there is no digit behind it. -/
structure Number where
  negative : Bool
  whole : List Char
  fraction : List Char
  power : Option Int
deriving DecidableEq, Repr

end Json

/-- A JSON value. -/
inductive Json where
  | null
  | bool (b : Bool)
  | number (n : Json.Number)
  | string (text : Json.Text)
  | array (items : List Json)
  | object (fields : List (Json.Text × Json))
deriving Inhabited

end Tandem
