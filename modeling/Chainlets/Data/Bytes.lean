/-!
# Byte strings

Keys and values of the store, packets and digests are lists of bytes. The module also has their
hexadecimal text.

## Main definitions

* `Bytes` — a list of bytes, ordered lexicographically.
* `Bytes.startsWith` — whether a byte string begins with another.
* `Bytes.toHex`, `Bytes.ofHex?` — lowercase hexadecimal text and its reader.
-/

namespace Chainlets

/-- A byte string. -/
abbrev Bytes := List UInt8

namespace Bytes

/-- Whether a byte string begins with another. -/
def startsWith (front : Bytes) (bytes : Bytes) : Bool := front.isPrefixOf bytes

/-- The two hexadecimal digits of a byte. -/
def hexDigits (b : UInt8) : List Char :=
  [Nat.digitChar (b.toNat / 16), Nat.digitChar (b.toNat % 16)]

/-- The lowercase hexadecimal text of a byte string. -/
def toHex (bytes : Bytes) : String := String.ofList (bytes.flatMap hexDigits)

/-- The value of a hexadecimal digit in either case. -/
def hexValue? (c : Char) : Option Nat :=
  if '0' ≤ c ∧ c ≤ '9' then some (c.toNat - '0'.toNat)
  else if 'a' ≤ c ∧ c ≤ 'f' then some (c.toNat - 'a'.toNat + 10)
  else if 'A' ≤ c ∧ c ≤ 'F' then some (c.toNat - 'A'.toNat + 10)
  else none

/-- The bytes that pairs of hexadecimal digits stand for. -/
def ofHexChars? : List Char → Option Bytes
  | [] => some []
  | [_] => none
  | c :: d :: rest => do
    let high ← hexValue? c
    let low ← hexValue? d
    let bytes ← ofHexChars? rest
    return UInt8.ofNat (16 * high + low) :: bytes

/-- The bytes that a hexadecimal text stands for. -/
def ofHex? (text : String) : Option Bytes := ofHexChars? text.toList

end Bytes

end Chainlets
