import DeviceBlob.Number.Style

/-!
# JSON

A JSON value as its text gives it.  An object keeps its members in the order of the text, also
when a name comes twice: what a repeated name means is for the reader of the document to say.
Numbers without a fraction or an exponent are integers as far as 64 bits reach.
-/

namespace DeviceBlob

/-- A JSON value. -/
inductive Json where
  | null
  | bool (value : Bool)
  /-- An integer from `-2^63` to `2^64 - 1`. -/
  | integer (value : Int)
  /-- Any other number. -/
  | double (value : Double)
  | string (value : String)
  | array (items : List Json)
  | object (members : List (String × Json))
  deriving Inhabited

namespace Json

/-- The text of a string. -/
def string? : Json → Option String
  | string value => some value
  | _ => none

/-- The items of an array. -/
def array? : Json → Option (List Json)
  | array items => some items
  | _ => none

/-- The members of an object. -/
def object? : Json → Option (List (String × Json))
  | object members => some members
  | _ => none

/-- How JSON writes floating-point numbers: plainly from `0.00001` on and below `10^16`, and else
with an exponent that always has a sign.  Halfway between two equally short numbers the even digit
is taken. -/
def numberStyle : NumberStyle := ⟨-5, 16, true, .toEven⟩

end Json

end DeviceBlob
