import Chainlets.Json.Basic
import Chainlets.Text.Decimal

/-!
# JSON tokens

A text is cut into punctuation, words, numerals and strings. A numeral takes as many of its
characters as follow each other, and must then be one as a whole. A string must be closed, hold no
control characters, and have only escapes that exist; whether it is text is asked later, and only
of strings that are used.

## Main definitions

* `Json.Token`.
* `Json.Token.scan` — the tokens of a text.
-/

namespace Chainlets.Json

/-- A token. -/
inductive Token where
  | openObject
  | closeObject
  | openArray
  | closeArray
  | colon
  | comma
  | null
  | bool (b : Bool)
  | natural (n : Nat)
  | otherNumber
  | string (content : Bytes)
deriving DecidableEq, Repr

namespace Token

/-! ### Numerals -/

/-- Whether a byte is an ASCII digit. -/
def isDigit (b : UInt8) : Bool := 0x30 ≤ b && b ≤ 0x39

/-- Whether a byte may stand in a numeral: a digit, a sign, a point or an exponent mark. -/
def isNumeralByte (b : UInt8) : Bool :=
  isDigit b || b = 0x2B || b = 0x2D || b = 0x2E || b = 0x45 || b = 0x65

/-- Whether bytes are digits, and at least one. -/
def isDigits (bytes : Bytes) : Bool := !bytes.isEmpty && bytes.all isDigit

/-- Whether bytes are a whole number: digits without a superfluous zero in front. -/
def isWhole (bytes : Bytes) : Bool :=
  isDigits bytes && (bytes.head? != some 0x30 || bytes.length == 1)

/-- Whether bytes are an exponent: a mark, possibly a sign, and digits. -/
def isExponent : Bytes → Bool
  | mark :: rest =>
    (mark = 0x45 || mark = 0x65) &&
      match rest with
      | sign :: digits =>
        if sign = 0x2B || sign = 0x2D then isDigits digits else isDigits rest
      | [] => false
  | [] => false

/-- Whether bytes are a fraction, an exponent, or a fraction and an exponent. -/
def isFractionOrExponent : Bytes → Bool
  | [] => false
  | b :: rest =>
    if b = 0x2E then
      let exponent := rest.dropWhile isDigit
      isDigits (rest.takeWhile isDigit) && (exponent.isEmpty || isExponent exponent)
    else isExponent (b :: rest)

/-- The token of a numeral without its sign. -/
def unsigned? (bytes : Bytes) : Option Token :=
  let whole := bytes.takeWhile isDigit
  let rest := bytes.dropWhile isDigit
  if isWhole whole then
    if rest.isEmpty then
      some (.natural (Decimal.value (whole.map fun b => Char.ofNat b.toNat)))
    else if isFractionOrExponent rest then some .otherNumber
    else none
  else none

/-- The token of a numeral. -/
def numeral? : Bytes → Option Token
  | [] => none
  | b :: rest =>
    if b = 0x2D then (unsigned? rest).map fun _ => .otherNumber else unsigned? (b :: rest)

/-! ### Strings -/

/-- A unit of a string: a byte, or a 16-bit code by its number. -/
inductive Unit where
  | byte (b : UInt8)
  | code (n : Nat)
deriving DecidableEq, Repr

/-- The byte that a character after a backslash stands for. -/
def escaped? (b : UInt8) : Option UInt8 :=
  if b = 0x22 ∨ b = 0x5C ∨ b = 0x2F then some b
  else if b = 0x62 then some 0x08
  else if b = 0x66 then some 0x0C
  else if b = 0x6E then some 0x0A
  else if b = 0x72 then some 0x0D
  else if b = 0x74 then some 0x09
  else none

/-- The number that four hexadecimal digits stand for. -/
def code? (a b c d : UInt8) : Option Nat := do
  let a ← Bytes.hexValue? (Char.ofNat a.toNat)
  let b ← Bytes.hexValue? (Char.ofNat b.toNat)
  let c ← Bytes.hexValue? (Char.ofNat c.toNat)
  let d ← Bytes.hexValue? (Char.ofNat d.toNat)
  return a * 4096 + b * 256 + c * 16 + d

/-- The units of a string up to its closing quotation mark, and the number of bytes up to and with
it. -/
def units? : Bytes → Option (List Unit × Nat)
  | [] => none
  | b :: rest =>
    if b = 0x22 then some ([], 1)
    else if b = 0x5C then
      match rest with
      | [] => none
      | e :: rest =>
        if e = 0x75 then
          match rest with
          | h₁ :: h₂ :: h₃ :: h₄ :: rest => do
            let n ← code? h₁ h₂ h₃ h₄
            let (units, width) ← units? rest
            return (.code n :: units, width + 6)
          | _ => none
        else do
          let c ← escaped? e
          let (units, width) ← units? rest
          return (.byte c :: units, width + 2)
    else if b < 0x20 then none
    else do
      let (units, width) ← units? rest
      return (.byte b :: units, width + 1)

/-- Whether a code is the first half of a surrogate pair. -/
def isHigh (n : Nat) : Bool := 0xD800 ≤ n && n ≤ 0xDBFF

/-- Whether a code is the second half of a surrogate pair. -/
def isLow (n : Nat) : Bool := 0xDC00 ≤ n && n ≤ 0xDFFF

/-- The bytes of a code point in the scheme of UTF-8. Half a surrogate pair gets bytes too, which
are not UTF-8 and so keep the string from being text. -/
def codePoint (n : Nat) : Bytes :=
  if n ≤ 0x7F then [UInt8.ofNat n]
  else if n ≤ 0x7FF then [UInt8.ofNat (n / 64 + 0xC0), UInt8.ofNat (n % 64 + 0x80)]
  else if n ≤ 0xFFFF then
    [UInt8.ofNat (n / 4096 + 0xE0), UInt8.ofNat (n / 64 % 64 + 0x80), UInt8.ofNat (n % 64 + 0x80)]
  else
    [UInt8.ofNat (n / 262144 + 0xF0), UInt8.ofNat (n / 4096 % 64 + 0x80),
      UInt8.ofNat (n / 64 % 64 + 0x80), UInt8.ofNat (n % 64 + 0x80)]

/-- The bytes that a list of units stands for. Two codes that form a surrogate pair are one code
point. -/
def content : List Unit → Bytes
  | [] => []
  | .byte b :: rest => b :: content rest
  | .code n :: .code m :: rest =>
    if isHigh n && isLow m then
      codePoint ((n - 0xD800) * 1024 + (m - 0xDC00) + 0x10000) ++ content rest
    else codePoint n ++ content (.code m :: rest)
  | .code n :: rest => codePoint n ++ content rest

/-! ### Scanning -/

/-- Whether a byte may stand between tokens. -/
def isSpace (b : UInt8) : Bool := b = 0x20 || b = 0x09 || b = 0x0A || b = 0x0D

/-- A word, if the bytes after its first one are there. -/
def word? (letters : String) (token : Token) (rest : Bytes) : Option (Token × Nat) :=
  if (ascii letters).isPrefixOf rest then some (token, letters.length) else none

/-- The token that begins with a byte, and the number of bytes it takes after that one. -/
def lexeme? (b : UInt8) (rest : Bytes) : Option (Token × Nat) :=
  if b = 0x7B then some (.openObject, 0)
  else if b = 0x7D then some (.closeObject, 0)
  else if b = 0x5B then some (.openArray, 0)
  else if b = 0x5D then some (.closeArray, 0)
  else if b = 0x3A then some (.colon, 0)
  else if b = 0x2C then some (.comma, 0)
  else if b = 0x22 then (units? rest).map fun (units, width) => (.string (content units), width)
  else if b = 0x6E then word? "ull" .null rest
  else if b = 0x74 then word? "rue" (.bool true) rest
  else if b = 0x66 then word? "alse" (.bool false) rest
  else
    let more := rest.takeWhile isNumeralByte
    (numeral? (b :: more)).map fun token => (token, more.length)

/-- The tokens of a text of which the first `skip` bytes have been read already. -/
def scanFrom : (skip : Nat) → Bytes → Option (List Token)
  | _, [] => some []
  | skip + 1, _ :: rest => scanFrom skip rest
  | 0, b :: rest =>
    if isSpace b then scanFrom 0 rest
    else do
      let (token, width) ← lexeme? b rest
      let tokens ← scanFrom width rest
      return token :: tokens

/-- The tokens of a text. -/
def scan (text : Bytes) : Option (List Token) := scanFrom 0 text

end Token

end Chainlets.Json
