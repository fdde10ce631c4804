/-!
# Binary floating-point formats

An IEEE 754 interchange format with a number of exponent bits and of fraction bits.  The *code* of
a non-negative number is its bit pattern read as a natural number: codes of greater numbers are
greater, and the code of infinity follows that of the greatest finite number.  `significand` opens
the code of a finite number and `nearest` finds the code next to a quotient.  Both work on natural
numbers, so they are exact.
-/

namespace DeviceBlob

/-- A binary interchange format. -/
structure BinaryFormat where
  /-- The number of bits of the exponent. -/
  exponentBits : Nat
  /-- The number of bits of the fraction, without the leading bit. -/
  fractionBits : Nat
  deriving DecidableEq

namespace BinaryFormat

/-- The format of single precision. -/
def binary32 : BinaryFormat := ⟨8, 23⟩

/-- The format of double precision. -/
def binary64 : BinaryFormat := ⟨11, 52⟩

variable (format : BinaryFormat)

/-- What the sign bit counts. -/
def signWeight : Nat := Nat.pow 2 (format.exponentBits + format.fractionBits)

/-- The code of infinity; greater codes are not numbers. -/
def infinity : Nat := (Nat.pow 2 format.exponentBits - 1) * Nat.pow 2 format.fractionBits

/-- The exponent of two in the last place of the smallest numbers. -/
def leastExponent : Int := 2 - Nat.pow 2 (format.exponentBits - 1) - format.fractionBits

/-- The number `m · 2 ^ q` with the given finite code, as the pair of `m` and `q`. -/
def significand (code : Nat) : Nat × Int :=
  let exponent := code / Nat.pow 2 format.fractionBits
  let fraction := code % Nat.pow 2 format.fractionBits
  if exponent = 0 then (fraction, format.leastExponent)
  else (Nat.pow 2 format.fractionBits + fraction, format.leastExponent + (exponent - 1))

/-- The integer nearest to a quotient; of two equally near ones the even one. -/
def roundHalfEven (num den : Nat) : Nat :=
  let below := num / den
  let rest := num % den
  if 2 * rest < den ∨ (2 * rest = den ∧ below % 2 = 0) then below else below + 1

/-- The quotient `num / den` divided by `2 ^ exponent`, as a numerator and a denominator. -/
def scaled (num den : Nat) (exponent : Int) : Nat × Nat :=
  (num * Nat.pow 2 (-exponent).toNat, den * Nat.pow 2 exponent.toNat)

/-- The greatest `e` with `2 ^ e ≤ num / den`, for a positive quotient. -/
def binaryExponent (num den : Nat) : Int :=
  let guess : Int := (num.log2 : Int) - den.log2
  let (n, d) := scaled num den guess
  if n < d then guess - 1 else guess

/-- The code of the number nearest to `num / den`, with ties to an even last bit.  What is too
great for the format gets the code of infinity. -/
def nearest (num den : Nat) : Nat :=
  if num = 0 then 0
  else
    let exponent := max format.leastExponent (binaryExponent num den - format.fractionBits)
    let (n, d) := scaled num den exponent
    let steps := (exponent - format.leastExponent).toNat
    min format.infinity (steps * Nat.pow 2 format.fractionBits + roundHalfEven n d)

end BinaryFormat

end DeviceBlob
