/-!
# Fingerprints

A fingerprint is the 32-bit FNV-1a hash of a text: from a fixed start each byte of the UTF-8 form
is combined by exclusive or, and the result is multiplied by a fixed prime.
-/

namespace DeviceBlob

/-- A 32-bit hash of a text. -/
abbrev Fingerprint := UInt32

namespace Fingerprint

/-- The hash of the empty text. -/
def start : Fingerprint := 2166136261

/-- The hash after one more byte. -/
def step (hash : Fingerprint) (byte : UInt8) : Fingerprint :=
  (hash ^^^ byte.toUInt32) * 16777619

/-- The hash of a text. -/
def ofText (text : String) : Fingerprint :=
  text.toUTF8.data.foldl step start

/-- The fingerprint in eight lower-case hexadecimal digits. -/
def hex (hash : Fingerprint) : String :=
  let digits := Nat.toDigits 16 hash.toNat
  String.ofList (List.replicate (8 - digits.length) '0' ++ digits)

end Fingerprint

end DeviceBlob
