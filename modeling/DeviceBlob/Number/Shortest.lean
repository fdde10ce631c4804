import DeviceBlob.Number.Double

/-!
# The fewest digits that name a double

Every finite double is the nearest one to a whole interval of numbers.  `ofCode` finds the decimal
number with the fewest digits in that interval and, among those with as few digits, the nearest to
the double.  For each count of digits the two decimal neighbours of the double are tried, in exact
arithmetic on natural numbers.  The double can lie halfway between the two; formats decide
differently which of them is taken then, and `TieRule` says which.
-/

namespace DeviceBlob

/-- The decimal number `digits · 10 ^ exponent`. -/
structure DecimalNumber where
  /-- The digits as a natural number. -/
  digits : Nat
  /-- The power of ten of the last digit. -/
  exponent : Int
  deriving DecidableEq, Repr, Inhabited

/-- Which of two neighbouring decimal numbers is taken for a double halfway between them. -/
inductive TieRule where
  /-- The one whose last digit is even. -/
  | toEven
  /-- The one of greater magnitude. -/
  | awayFromZero
  deriving DecidableEq, Repr, Inhabited

namespace TieRule

/-- The digits that are taken halfway between the given ones and those one greater. -/
def choose (tie : TieRule) (digits : Nat) : Nat :=
  match tie with
  | toEven => if digits % 2 = 0 then digits else digits + 1
  | awayFromZero => digits + 1

end TieRule

namespace DecimalNumber

/-- The interval of numbers nearest to one double, in quarters of its last place. -/
structure Interval where
  /-- Four times the significand of the double. -/
  centre : Nat
  /-- The lower end. -/
  lower : Nat
  /-- The upper end. -/
  upper : Nat
  /-- Both ends belong to the interval. -/
  closed : Bool
  /-- The exponent of two of the unit in which the other fields count. -/
  exponent : Int

/-- The interval of the double with the given finite code.  Below a power of two the doubles are
twice as dense, so there the lower end is nearer. -/
def Interval.ofCode (code : Nat) : Interval :=
  let (m, q) := BinaryFormat.binary64.significand code
  let atPower := code % Nat.pow 2 52 == 0 && Nat.pow 2 52 < code
  { centre := 4 * m
    lower := 4 * m - (if atPower then 1 else 2)
    upper := 4 * m + 2
    closed := m % 2 == 0
    exponent := q - 2 }

/-- Numerators of `n · 2 ^ binary` and `d · 10 ^ decimal` over one common denominator. -/
def overCommon (n : Nat) (binary : Int) (d : Nat) (decimal : Int) : Nat × Nat :=
  (n * Nat.pow 2 binary.toNat * Nat.pow 10 (-decimal).toNat,
    d * Nat.pow 10 decimal.toNat * Nat.pow 2 (-binary).toNat)

/-- The decimal number lies in the interval. -/
def isIn (x : DecimalNumber) (interval : Interval) : Bool :=
  let (low, value) := overCommon interval.lower interval.exponent x.digits x.exponent
  let (high, value') := overCommon interval.upper interval.exponent x.digits x.exponent
  if interval.closed then low ≤ value && value' ≤ high else low < value && value' < high

/-- The greatest `digits · 10 ^ exponent` that is at most the centre of the interval. -/
def below (interval : Interval) (exponent : Int) : Nat :=
  let (centre, unit) := overCommon interval.centre interval.exponent 1 exponent
  centre / unit

/-- The decimal number with the given last place that is in the interval and nearest to its
centre. -/
def onGrid? (tie : TieRule) (interval : Interval) (exponent : Int) : Option DecimalNumber :=
  let low : DecimalNumber := ⟨below interval exponent, exponent⟩
  let high : DecimalNumber := ⟨low.digits + 1, exponent⟩
  match low.isIn interval, high.isIn interval with
  | true, true =>
    let (centre, sum) :=
      overCommon (2 * interval.centre) interval.exponent (low.digits + high.digits) exponent
    some (if centre < sum then low
      else if sum < centre then high
      else ⟨tie.choose low.digits, exponent⟩)
  | true, false => some low
  | false, true => some high
  | false, false => none

/-- The first hit on grids that get finer by a factor of ten. -/
def onFinerGrid (tie : TieRule) (interval : Interval) (exponent : Int) : Nat → DecimalNumber
  | 0 => ⟨below interval exponent, exponent⟩
  | tries + 1 =>
    match onGrid? tie interval exponent with
    | some x => x
    | none => onFinerGrid tie interval (exponent - 1) tries

/-- The number of decimal digits of a natural number. -/
def digitCount (n : Nat) : Nat := (Nat.toDigits 10 n).length

/-- The same number without zeros at its end. -/
def dropZeros (x : DecimalNumber) : DecimalNumber :=
  go (digitCount x.digits) x
where
  /-- Drops at most the given number of zeros. -/
  go : Nat → DecimalNumber → DecimalNumber
    | 0, x => x
    | count + 1, x =>
      if x.digits ≠ 0 ∧ x.digits % 10 = 0 then go count ⟨x.digits / 10, x.exponent + 1⟩ else x

/-- A power of ten that is greater than the centre of the interval. -/
def startExponent (interval : Interval) : Int :=
  let (num, den) := Double.fraction interval.centre interval.exponent
  (digitCount num : Int) - digitCount den + 1

/-- The shortest decimal number that names the double with the given code, which is finite and
not zero. -/
def ofCode (tie : TieRule) (code : Nat) : DecimalNumber :=
  let interval := Interval.ofCode code
  (onFinerGrid tie interval (startExponent interval) 20).dropZeros

end DecimalNumber

end DeviceBlob
