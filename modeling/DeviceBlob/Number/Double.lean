import DeviceBlob.Number.BinaryFormat

/-!
# Numbers of double precision

A `Double` is its 64-bit pattern, so two of them are equal when they have the same bits: zeros of
different sign differ, and a pattern that is not a number equals itself.  Products, quotients and
changes of precision are those of IEEE 754 with ties to even.
-/

namespace DeviceBlob

/-- A number of double precision, or an infinity, or a pattern that is not a number. -/
structure Double where
  /-- The bit pattern. -/
  bits : UInt64
  deriving DecidableEq, Repr, Inhabited

namespace Double

open BinaryFormat

/-- The number with the given sign and code. -/
def ofCode (negative : Bool) (code : Nat) : Double :=
  ⟨UInt64.ofNat (code + if negative then binary64.signWeight else 0)⟩

/-- The sign bit is set. -/
def isNegative (x : Double) : Bool := binary64.signWeight ≤ x.bits.toNat

/-- The pattern without the sign bit. -/
def code (x : Double) : Nat := x.bits.toNat % binary64.signWeight

/-- The pattern is not a number. -/
def isNaN (x : Double) : Bool := binary64.infinity < x.code

/-- The number is one of the two infinities. -/
def isInfinite (x : Double) : Bool := x.code == binary64.infinity

/-- The number nearest to an integer. -/
def ofInt (n : Int) : Double := ofCode (n < 0) (binary64.nearest n.natAbs 1)

/-! ### Arithmetic on codes of finite, non-negative numbers -/

/-- The quotient of natural numbers that equals `m · 2 ^ q`. -/
def fraction (m : Nat) (q : Int) : Nat × Nat := (m * Nat.pow 2 q.toNat, Nat.pow 2 (-q).toNat)

/-- The code of the product. -/
def mulCode (a b : Nat) : Nat :=
  let (m, p) := binary64.significand a
  let (n, q) := binary64.significand b
  let (num, den) := fraction (m * n) (p + q)
  binary64.nearest num den

/-- The code of the quotient by a number that is not zero. -/
def divCode (a b : Nat) : Nat :=
  let (m, p) := binary64.significand a
  let (n, q) := binary64.significand b
  let (num, den) := fraction m (p - q)
  binary64.nearest num (n * den)

/-! ### Single precision -/

/-- The bits of the number of single precision nearest to `x`.  A pattern that is not a number
keeps its sign and the upper bits of its fraction, and becomes quiet. -/
def toSingleBits (x : Double) : UInt32 :=
  let code :=
    if x.isNaN then
      binary32.infinity ||| Nat.pow 2 22 ||| (x.code % Nat.pow 2 52) / Nat.pow 2 29
    else if x.isInfinite then binary32.infinity
    else
      let (m, q) := binary64.significand x.code
      let (num, den) := fraction m q
      binary32.nearest num den
  UInt32.ofNat (code + if x.isNegative then binary32.signWeight else 0)

/-- The number of single precision with the given bits. -/
def ofSingleBits (bits : UInt32) : Double :=
  let negative : Bool := binary32.signWeight ≤ bits.toNat
  let code := bits.toNat % binary32.signWeight
  if binary32.infinity < code then
    ofCode negative (binary64.infinity ||| Nat.pow 2 51 ||| (code % Nat.pow 2 23) * Nat.pow 2 29)
  else if code = binary32.infinity then ofCode negative binary64.infinity
  else
    let (m, q) := binary32.significand code
    let (num, den) := fraction m q
    ofCode negative (binary64.nearest num den)

/-- The number rounded to single precision. -/
def toSingle (x : Double) : Double := ofSingleBits x.toSingleBits

end Double

end DeviceBlob
