import Chainlets.Data.Bytes

/-!
# UTF-8

Text in UTF-8 bytes, read strictly and read leniently. Both readings go over the same *pieces*: a
byte string is cut into characters, maximal runs that begin no character, and, at most once and at
the end, a character that the end cuts off. The strict reading reports the first piece that is not
a character; the lenient one puts U+FFFD in its place.

## Main definitions

* `Utf8.encode` — the bytes of a text.
* `Utf8.pieces` — the pieces of a byte string.
* `Utf8.decode` — the text of a byte string, or the place and kind of its first fault.
* `Utf8.decodeLossy` — the text with U+FFFD for every fault.
-/

namespace Chainlets.Utf8

/-- The UTF-8 bytes of a text. -/
def encode (s : String) : Bytes := s.toList.flatMap String.utf8EncodeChar

/-- A character takes one to four bytes. -/
theorem length_encode_bounds (s : String) :
    s.length ≤ (encode s).length ∧ (encode s).length ≤ 4 * s.length := by
  rw [encode, ← String.length_toList]
  induction s.toList with
  | nil => exact ⟨Nat.le_refl 0, Nat.le_refl 0⟩
  | cons c rest ih =>
    have hsize := String.length_utf8EncodeChar c
    have hlower := c.utf8Size_pos
    have hupper := c.utf8Size_le_four
    rw [List.flatMap_cons, List.length_append, List.length_cons]
    omega

/-! ### Pieces -/

/-- What stands at the front of a byte string. -/
inductive Piece where
  /-- A character. -/
  | char (c : Char)
  /-- A number of bytes that begin no character. -/
  | invalid (width : Nat)
  /-- The beginning of a character that the end of the bytes cuts off. -/
  | cut
deriving DecidableEq, Repr

/-- Whether a byte continues a character. -/
def isTail (b : UInt8) : Bool := 0x80 ≤ b && b ≤ 0xBF

/-- Whether a byte may be the second one of a three-byte character with a given first byte. -/
def isSecondOfThree (first b : UInt8) : Bool :=
  isTail b && (first != 0xE0 || 0xA0 ≤ b) && (first != 0xED || b ≤ 0x9F)

/-- Whether a byte may be the second one of a four-byte character with a given first byte. -/
def isSecondOfFour (first b : UInt8) : Bool :=
  isTail b && (first != 0xF0 || 0x90 ≤ b) && (first != 0xF4 || b ≤ 0x8F)

/-- The character of two bytes. -/
def char₂ (a b : UInt8) : Char := Char.ofNat ((a.toNat - 0xC0) * 64 + (b.toNat - 0x80))

/-- The character of three bytes. -/
def char₃ (a b c : UInt8) : Char :=
  Char.ofNat ((a.toNat - 0xE0) * 4096 + (b.toNat - 0x80) * 64 + (c.toNat - 0x80))

/-- The character of four bytes. -/
def char₄ (a b c d : UInt8) : Char :=
  Char.ofNat ((a.toNat - 0xF0) * 262144 + (b.toNat - 0x80) * 4096 + (c.toNat - 0x80) * 64 +
    (d.toNat - 0x80))

/-- The piece that a byte and the bytes after it begin with. -/
def front (a : UInt8) (rest : Bytes) : Piece :=
  if a ≤ 0x7F then .char (Char.ofNat a.toNat)
  else if 0xC2 ≤ a && a ≤ 0xDF then
    match rest with
    | [] => .cut
    | b :: _ => if isTail b then .char (char₂ a b) else .invalid 1
  else if 0xE0 ≤ a && a ≤ 0xEF then
    match rest with
    | [] => .cut
    | b :: rest =>
      if isSecondOfThree a b then
        match rest with
        | [] => .cut
        | c :: _ => if isTail c then .char (char₃ a b c) else .invalid 2
      else .invalid 1
  else if 0xF0 ≤ a && a ≤ 0xF4 then
    match rest with
    | [] => .cut
    | b :: rest =>
      if isSecondOfFour a b then
        match rest with
        | [] => .cut
        | c :: rest =>
          if isTail c then
            match rest with
            | [] => .cut
            | d :: _ => if isTail d then .char (char₄ a b c d) else .invalid 3
          else .invalid 2
      else .invalid 1
  else .invalid 1

/-- The number of bytes that a piece takes. One that is cut off takes all that are left. -/
def Piece.width : Piece → Option Nat
  | .char c => some c.utf8Size
  | .invalid n => some n
  | .cut => none

/-- The pieces of a byte string, of which the first `skip` bytes have been read already. -/
def piecesFrom : (skip : Nat) → Bytes → List Piece
  | _, [] => []
  | skip + 1, _ :: rest => piecesFrom skip rest
  | 0, a :: rest =>
    let piece := front a rest
    match piece.width with
    | some n => piece :: piecesFrom (n - 1) rest
    | none => [piece]

/-- The pieces of a byte string. -/
def pieces (bytes : Bytes) : List Piece := piecesFrom 0 bytes

/-! ### Readings -/

/-- Why a byte string is not UTF-8 text. -/
inductive Fault where
  /-- From a position on, a number of bytes begin no character. -/
  | invalid (position width : Nat)
  /-- The bytes end inside the character at a position. -/
  | incomplete (position : Nat)
deriving DecidableEq, Repr

/-- The wording of a fault. -/
def Fault.message : Fault → String
  | .invalid position width => s!"invalid utf-8 sequence of {width} bytes from index {position}"
  | .incomplete position => s!"incomplete utf-8 byte sequence from index {position}"

/-- The characters of a list of pieces that begins at a position, or the first fault in it. -/
def collect : (position : Nat) → List Piece → Except Fault (List Char)
  | _, [] => .ok []
  | position, .char c :: rest => (collect (position + c.utf8Size) rest).map (c :: ·)
  | position, .invalid n :: _ => .error (.invalid position n)
  | position, .cut :: _ => .error (.incomplete position)

/-- The text of a byte string, or the first fault in it. -/
def decode (bytes : Bytes) : Except Fault String := (collect 0 (pieces bytes)).map String.ofList

/-- The text of a byte string that is UTF-8 throughout. -/
def decode? (bytes : Bytes) : Option String := (decode bytes).toOption

/-- The character that stands for a piece in a lenient reading. -/
def Piece.toChar : Piece → Char
  | .char c => c
  | _ => '\uFFFD'

/-- The text of a byte string, with U+FFFD in place of every fault. -/
def decodeLossy (bytes : Bytes) : String := String.ofList ((pieces bytes).map Piece.toChar)

end Chainlets.Utf8
