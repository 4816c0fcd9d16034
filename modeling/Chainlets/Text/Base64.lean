import Chainlets.Data.Bytes

/-!
# Base64

The standard alphabet with required padding. The reader is canonical: it accepts a text only if it
is what the writer makes of the bytes it stands for, so no two texts carry the same payload.

## Main definitions

* `Base64.encode` — the text of a byte string.
* `Base64.decode?` — the bytes of a text that `encode` could have written.
-/

namespace Chainlets.Base64

/-- The character of a group of six bits. -/
def symbol (n : Nat) : Char :=
  if n < 26 then Char.ofNat ('A'.toNat + n)
  else if n < 52 then Char.ofNat ('a'.toNat + (n - 26))
  else if n < 62 then Char.ofNat ('0'.toNat + (n - 52))
  else if n = 62 then '+'
  else '/'

/-- The six bits of a character of the alphabet. -/
def value? (c : Char) : Option Nat :=
  if 'A' ≤ c ∧ c ≤ 'Z' then some (c.toNat - 'A'.toNat)
  else if 'a' ≤ c ∧ c ≤ 'z' then some (c.toNat - 'a'.toNat + 26)
  else if '0' ≤ c ∧ c ≤ '9' then some (c.toNat - '0'.toNat + 52)
  else if c = '+' then some 62
  else if c = '/' then some 63
  else none

/-- The characters of a byte string: four for every three bytes, the last group padded. -/
def encodeChars : Bytes → List Char
  | [] => []
  | [a] => [symbol (a.toNat / 4), symbol (a.toNat % 4 * 16), '=', '=']
  | [a, b] =>
    [symbol (a.toNat / 4), symbol (a.toNat % 4 * 16 + b.toNat / 16), symbol (b.toNat % 16 * 4), '=']
  | a :: b :: c :: rest =>
    symbol (a.toNat / 4) :: symbol (a.toNat % 4 * 16 + b.toNat / 16) ::
      symbol (b.toNat % 16 * 4 + c.toNat / 64) :: symbol (c.toNat % 64) :: encodeChars rest

/-- The text of a byte string. -/
def encode (bytes : Bytes) : String := String.ofList (encodeChars bytes)

/-- The byte of a last group of two characters, whose four spare bits must be zero. -/
def lastOne? (c d : Char) : Option Bytes := do
  let m ← value? c
  let n ← value? d
  if n % 16 = 0 then some [UInt8.ofNat (m * 4 + n / 16)] else none

/-- The bytes of a last group of three characters, whose two spare bits must be zero. -/
def lastTwo? (c d e : Char) : Option Bytes := do
  let m ← value? c
  let n ← value? d
  let o ← value? e
  if o % 4 = 0 then some [UInt8.ofNat (m * 4 + n / 16), UInt8.ofNat (n % 16 * 16 + o / 4)]
  else none

/-- The bytes of a full group of four characters. -/
def group? (c d e f : Char) : Option Bytes := do
  let m ← value? c
  let n ← value? d
  let o ← value? e
  let p ← value? f
  return [UInt8.ofNat (m * 4 + n / 16), UInt8.ofNat (n % 16 * 16 + o / 4),
    UInt8.ofNat (o % 4 * 64 + p)]

/-- The bytes of a list of characters. Padding is accepted at the end only. -/
def decodeChars? : List Char → Option Bytes
  | [] => some []
  | [c, d, '=', '='] => lastOne? c d
  | [c, d, e, '='] => lastTwo? c d e
  | c :: d :: e :: f :: rest => do
    let bytes ← group? c d e f
    let more ← decodeChars? rest
    return bytes ++ more
  | _ => none

/-- The bytes of a text that `encode` could have written. -/
def decode? (s : String) : Option Bytes := decodeChars? s.toList

end Chainlets.Base64
