import DeviceBlob.Json.Basic
import DeviceBlob.Text.Affix
import DeviceBlob.Text.Decimal

/-!
# Reading JSON

The reader takes the grammar of JSON strictly and refuses what has no meaning here: an escaped half
of a surrogate pair without its other half, a number beyond the range of doubles, and containers
nested more than 127 deep.  `parse?` reads a whole text.  `parseKeeping?` reads a document of which
only some members are of interest: it skips the other members of the outermost object, for which
the grammar alone counts, and leaves them out of the result.

A reader step takes the characters that are left and gives what it read with the rest.
-/

namespace DeviceBlob.Json

open Text

/-- A step of the reader: what it read, and the characters behind it. -/
abbrev Step (α : Type) := List Char → Option (α × List Char)

/-- The characters behind any blanks. -/
def skipBlanks (cs : List Char) : List Char :=
  cs.dropWhile fun c => c == ' ' || c == '\n' || c == '\t' || c == '\r'

/-! ### Numbers -/

/-- A number as it is written. -/
structure Literal where
  /-- There is a minus sign in front. -/
  negative : Bool
  /-- The digits before the point. -/
  whole : List Char
  /-- The digits behind the point, if there is one. -/
  fraction : Option (List Char)
  /-- The exponent, if there is one. -/
  exponent : Option Int

/-- One or more digits. -/
def digits : Step (List Char) := fun cs =>
  match cs.takeWhile Char.isDigit with
  | [] => none
  | taken => some (taken, cs.dropWhile Char.isDigit)

/-- The digits before the point: a zero alone, or digits that do not start with one. -/
def wholeDigits : Step (List Char) := fun cs => do
  let (taken, rest) ← digits cs
  if taken.head? = some '0' ∧ taken.length ≠ 1 then none else some (taken, rest)

/-- A point with digits behind it, if there is a point. -/
def fractionDigits : Step (Option (List Char))
  | '.' :: rest => (digits rest).map fun (taken, rest) => (some taken, rest)
  | cs => some (none, cs)

/-- An exponent, if there is one. -/
def exponentPart : Step (Option Int)
  | c :: rest =>
    if c = 'e' ∨ c = 'E' then
      let (negative, rest) := match rest with
        | '-' :: rest => (true, rest)
        | '+' :: rest => (false, rest)
        | rest => (false, rest)
      (digits rest).map fun (taken, rest) =>
        let magnitude : Int := Nat.ofDigitChars 10 taken 0
        (some (if negative then -magnitude else magnitude), rest)
    else some (none, c :: rest)
  | [] => some (none, [])

/-- A number as it is written. -/
def literal : Step Literal := fun cs => do
  let (negative, cs) := match cs with
    | '-' :: rest => (true, rest)
    | cs => (false, cs)
  let (whole, cs) ← wholeDigits cs
  let (fraction, cs) ← fractionDigits cs
  let (exponent, cs) ← exponentPart cs
  return (⟨negative, whole, fraction, exponent⟩, cs)

/-- The greatest significand that is kept while digits are read. -/
def significandLimit : Nat := 18446744073709551615

/-- A significand with a power of ten, as digits are read one by one. -/
structure Significand where
  /-- The digits so far, as far as they fit below the limit. -/
  value : Nat
  /-- The power of ten. -/
  exponent : Int
  /-- A digit did not fit; those behind it are not read any more. -/
  full : Bool

/-- One more digit before the point. -/
def Significand.pushWhole (s : Significand) (digit : Nat) : Significand :=
  if s.full || significandLimit < s.value * 10 + digit then
    ⟨s.value, s.exponent + 1, true⟩
  else ⟨s.value * 10 + digit, s.exponent, false⟩

/-- One more digit behind the point. -/
def Significand.pushFraction (s : Significand) (digit : Nat) : Significand :=
  if s.full || significandLimit < s.value * 10 + digit then { s with full := true }
  else ⟨s.value * 10 + digit, s.exponent - 1, false⟩

/-- The significand of a written number. -/
def Literal.significand (l : Literal) : Significand :=
  let digit (c : Char) : Nat := c.toNat - '0'.toNat
  let start : Significand := ⟨0, 0, false⟩
  let whole : Significand := l.whole.foldl (fun s c => s.pushWhole (digit c)) start
  let front : Significand := { whole with full := false }
  (l.fraction.getD []).foldl (fun s c => s.pushFraction (digit c)) front

/-- The code of a power of ten as a double. -/
def powerOfTen (n : Nat) : Nat := BinaryFormat.binary64.nearest (Nat.pow 10 n) 1

/-- The code of `significand · 10 ^ exponent`, or nothing if it is too great.  The significand is
rounded to a double first and then scaled by powers of ten up to `10^308`, each step rounded. -/
def scaledCode? (significand : Nat) (exponent : Int) : Option Nat :=
  let code := BinaryFormat.binary64.nearest significand 1
  if significand = 0 then some 0
  else if 308 < exponent then none
  else if 0 ≤ exponent then
    let product := Double.mulCode code (powerOfTen exponent.toNat)
    if product < BinaryFormat.binary64.infinity then some product else none
  else if -308 ≤ exponent then some (Double.divCode code (powerOfTen (-exponent).toNat))
  else if -616 ≤ exponent then
    let scaled := Double.divCode code (powerOfTen 308)
    some (Double.divCode scaled (powerOfTen (-exponent - 308).toNat))
  else some 0

/-- The value of a written number.  A zero with a minus sign is the negative zero. -/
def Literal.value? (l : Literal) : Option Json :=
  let s := l.significand
  let isWhole := l.fraction.isNone && l.exponent.isNone
  if isWhole && s.exponent == 0 && !l.negative then some (integer s.value)
  else if isWhole && s.exponent == 0 && s.value != 0 && s.value ≤ 9223372036854775808 then
    some (integer (-s.value))
  else (scaledCode? s.value (s.exponent + l.exponent.getD 0)).map fun code =>
    double (Double.ofCode l.negative code)

/-! ### Strings -/

/-- The value of a hexadecimal digit. -/
def hexValue? (c : Char) : Option Nat :=
  if c.isDigit then some (c.toNat - '0'.toNat)
  else if 'a' ≤ c ∧ c ≤ 'f' then some (c.toNat - 'a'.toNat + 10)
  else if 'A' ≤ c ∧ c ≤ 'F' then some (c.toNat - 'A'.toNat + 10)
  else none

/-- The value of four hexadecimal digits. -/
def hexUnit : Step Nat
  | a :: b :: c :: d :: rest => do
    let a ← hexValue? a
    let b ← hexValue? b
    let c ← hexValue? c
    let d ← hexValue? d
    return (((a * 16 + b) * 16 + c) * 16 + d, rest)
  | _ => none

/-- The unit is the first half of a surrogate pair. -/
def isHighHalf (unit : Nat) : Bool := 0xD800 ≤ unit && unit < 0xDC00

/-- The unit is the second half of a surrogate pair. -/
def isLowHalf (unit : Nat) : Bool := 0xDC00 ≤ unit && unit < 0xE000

/-- The character that a short escape stands for. -/
def shortEscape? : Char → Option Char
  | '"' => some '"'
  | '\\' => some '\\'
  | '/' => some '/'
  | 'b' => some '\x08'
  | 'f' => some '\x0c'
  | 'n' => some '\n'
  | 'r' => some '\r'
  | 't' => some '\t'
  | _ => none

/-- The character that the escape behind a backslash stands for.  Where the text is only skipped,
halves of surrogate pairs stand for any character. -/
def escapedChar (skipping : Bool) : Step Char
  | 'u' :: rest => do
    let (unit, rest) ← hexUnit rest
    if skipping then return ('?', rest)
    else if isHighHalf unit then
      match rest with
      | '\\' :: 'u' :: rest =>
        let (low, rest) ← hexUnit rest
        if isLowHalf low then
          return (Char.ofNat (0x10000 + (unit - 0xD800) * 0x400 + (low - 0xDC00)), rest)
        else none
      | _ => none
    else if isLowHalf unit then none
    else return (Char.ofNat unit, rest)
  | c :: rest => (shortEscape? c).map (·, rest)
  | [] => none

/-- The characters of a string up to its closing quote.  The count bounds their number. -/
def stringBody (skipping : Bool) : Nat → Step (List Char)
  | 0, _ => none
  | _ + 1, [] => none
  | _ + 1, '"' :: rest => some ([], rest)
  | count + 1, '\\' :: rest => do
    let (c, rest) ← escapedChar skipping rest
    let (tail, rest) ← stringBody skipping count rest
    return (c :: tail, rest)
  | count + 1, c :: rest =>
    if c.toNat < 0x20 then none
    else do
      let (tail, rest) ← stringBody skipping count rest
      return (c :: tail, rest)

/-- A string behind its opening quote. -/
def stringText (skipping : Bool) : Step String := fun cs =>
  (stringBody skipping (cs.length + 1) cs).map fun (body, rest) => (String.ofList body, rest)

/-! ### Arrays and objects -/

/-- Further items behind a comma, up to the closing bracket.  The count bounds their number. -/
def moreItems {α : Type} (item : Step α) (closing : Char) : Nat → Step (List α)
  | 0, _ => none
  | count + 1, cs =>
    match skipBlanks cs with
    | ',' :: rest => do
      let (first, rest) ← item (skipBlanks rest)
      let (others, rest) ← moreItems item closing count rest
      return (first :: others, rest)
    | c :: rest => if c = closing then some ([], rest) else none
    | [] => none

/-- Items with commas between them, behind the opening bracket. -/
def itemsUntil {α : Type} (item : Step α) (closing : Char) : Step (List α) := fun cs =>
  match skipBlanks cs with
  | c :: rest =>
    if c = closing then some ([], rest)
    else do
      let (first, rest) ← item (c :: rest)
      let (others, rest) ← moreItems item closing rest.length rest
      return (first :: others, rest)
  | [] => none

/-- A name, a colon and a value. -/
def member {α : Type} (skipping : Bool) (value : String → Step α) : Step (String × α)
  | '"' :: rest => do
    let (name, rest) ← stringText skipping rest
    match skipBlanks rest with
    | ':' :: rest =>
      let (x, rest) ← value name (skipBlanks rest)
      return ((name, x), rest)
    | _ => none
  | _ => none

/-- A value that is neither an array nor an object. -/
def atom (skipping : Bool) : Step Json
  | '"' :: rest => (stringText skipping rest).map fun (text, rest) => (string text, rest)
  | cs =>
    let word (name : String) (value : Json) : Option (Json × List Char) :=
      (afterFront? name.toList cs).map (value, ·)
    word "null" null <|> word "true" (bool true) <|> word "false" (bool false) <|> do
      let (number, rest) ← literal cs
      if skipping then return (null, rest)
      else return (← number.value?, rest)

/-- A value in which containers are nested at most `depth` deep. -/
def value (skipping : Bool) : (depth : Nat) → Step Json
  | depth + 1, '[' :: rest =>
    (itemsUntil (value skipping depth) ']' rest).map fun (items, rest) => (array items, rest)
  | depth + 1, '\x7b' :: rest =>
    (itemsUntil (member skipping fun _ => value skipping depth) '\x7d' rest).map
      fun (members, rest) => (object members, rest)
  | _, cs => atom skipping cs

/-- How deep containers may be nested. -/
def depthLimit : Nat := 127

/-- What a step reads from the whole text, which has nothing but blanks around it. -/
def whole? {α : Type} (step : Step α) (text : String) : Option α := do
  let (x, rest) ← step (skipBlanks text.toList)
  if (skipBlanks rest).isEmpty then some x else none

/-- The value that a text stands for. -/
def parse? (text : String) : Option Json :=
  whole? (value false depthLimit) text

/-- A value, or nothing if the member of that name is skipped. -/
def keptValue (names : List String) (name : String) : Step (Option Json) := fun cs =>
  if names.contains name then
    (value false (depthLimit - 1) cs).map fun (x, rest) => (some x, rest)
  else (value true cs.length cs).map fun (_, rest) => (none, rest)

/-- A value; if it is an object, only its members with the given names. -/
def valueKeeping (names : List String) : Step Json
  | '\x7b' :: rest =>
    (itemsUntil (member false (keptValue names)) '\x7d' rest).map fun (members, rest) =>
      (object (members.filterMap fun (name, x) => x.map (name, ·)), rest)
  | cs => value false depthLimit cs

/-- The value that a text stands for; if it is an object, only its members with the given names. -/
def parseKeeping? (names : List String) (text : String) : Option Json :=
  whole? (valueKeeping names) text

end DeviceBlob.Json
