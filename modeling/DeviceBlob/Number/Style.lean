import DeviceBlob.Number.Shortest

/-!
# How a number is written

`NumberStyle` holds the decisions that a text format makes about floating-point numbers: from where
on it uses an exponent, whether a positive exponent gets a sign, and which digits it takes for a
number halfway between two equally short ones.  The digits are the fewest that name the number.  A
number written without an exponent has at least one digit after the point.
-/

namespace DeviceBlob

/-- How a format writes floating-point numbers. -/
structure NumberStyle where
  /-- The decimal exponent of the least numbers that are written without an exponent. -/
  leastPlain : Int
  /-- The decimal exponent of the least numbers that are too great for it. -/
  leastScientific : Int
  /-- A positive exponent is written with its sign. -/
  plusSign : Bool
  /-- The digits of a number halfway between two equally short ones. -/
  tie : TieRule

namespace NumberStyle

/-- Digits with a point behind the first `whole` of them; zeros fill what is missing. -/
def withPoint (digits : List Char) (whole : Int) : List Char :=
  if whole ≤ 0 then
    '0' :: '.' :: List.replicate (-whole).toNat '0' ++ digits
  else
    let whole := whole.toNat
    if digits.length ≤ whole then
      digits ++ List.replicate (whole - digits.length) '0' ++ ['.', '0']
    else digits.take whole ++ '.' :: digits.drop whole

/-- Digits with a point behind the first one, if there are others, and an exponent. -/
def withExponent (style : NumberStyle) (digits : List Char) (exponent : Int) : List Char :=
  let mantissa := match digits with
    | first :: second :: rest => first :: '.' :: second :: rest
    | short => short
  let sign := if exponent < 0 then ['-'] else if style.plusSign then ['+'] else []
  mantissa ++ 'e' :: sign ++ Nat.toDigits 10 exponent.natAbs

/-- The text of a decimal number that is not zero. -/
def ofDecimal (style : NumberStyle) (x : DecimalNumber) : List Char :=
  let digits := Nat.toDigits 10 x.digits
  let exponent := x.exponent + digits.length - 1
  if style.leastPlain ≤ exponent ∧ exponent < style.leastScientific then
    withPoint digits (exponent + 1)
  else style.withExponent digits exponent

/-- The text of a number. -/
def write (style : NumberStyle) (x : Double) : String :=
  if x.isNaN then "NaN"
  else
    let magnitude :=
      if x.isInfinite then "inf".toList
      else if x.code = 0 then "0.0".toList
      else style.ofDecimal (DecimalNumber.ofCode style.tie x.code)
    String.ofList (if x.isNegative then '-' :: magnitude else magnitude)

end NumberStyle

end DeviceBlob
