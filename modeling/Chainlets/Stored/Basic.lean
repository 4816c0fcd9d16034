import Chainlets.Clock
import Chainlets.Coin
import Chainlets.Text.Utf8

/-!
# Stored values

The byte format of the store. Numbers have a fixed width and are little-endian, texts and lists
begin with a 32-bit count, optional values and alternatives begin with one byte, and a record is
its fields in order. A reader takes a value from the front of the bytes and leaves the rest; the
first fault from the left is reported.

## Main definitions

* `Stored.Fault` — why bytes hold no value, with its wording.
* `Stored.Reader` — a reader of values from the front of bytes.
* `Stored.Format` — a type with a stored form, and which of its values can be stored.
* `Stored.decode` — the value at the front of bytes.
-/

namespace Chainlets.Stored

/-- Why bytes hold no value. -/
inductive Fault where
  /-- There are too few bytes. -/
  | short
  /-- A byte is no truth value. -/
  | badBool (b : UInt8)
  /-- A byte says neither that an optional value is there nor that it is not. -/
  | badOption (b : UInt8)
  /-- A byte names no alternative. -/
  | badAlternative (b : UInt8)
  /-- A text is not UTF-8. -/
  | badText (fault : Utf8.Fault)
deriving DecidableEq, Repr

/-- The wording of a fault. -/
def Fault.message : Fault → String
  | .short => "Unexpected length of input"
  | .badBool b => s!"Invalid bool representation: {b}"
  | .badOption b => s!"Invalid Option representation: {b}. The first byte must be 0 or 1"
  | .badAlternative b => s!"Unexpected variant index: {b}"
  | .badText fault => fault.message

/-- A reader takes a value from the front of bytes and leaves the rest. -/
abbrev Reader (α : Type) := StateT Bytes (Except Fault) α

/-- The greatest count that fits into four bytes, which is `2 ^ 32 - 1`. -/
def maxCount : Nat := 4294967295

/-- A type with a stored form. -/
class Format (α : Type) where
  /-- The stored form of a value. -/
  encode : α → Bytes
  /-- The reader of stored forms. -/
  reader : Reader α
  /-- Whether every count in the stored form of a value fits into its four bytes. A value of which
  one does not is never stored. -/
  fits : α → Bool

export Format (encode reader fits)

/-- The value at the front of bytes. What follows it is ignored. -/
def decode {α : Type} [Format α] (bytes : Bytes) : Except Fault α := (reader (α := α)).run' bytes

/-! ### Plain values -/

/-- A number of bytes from the front. -/
def takeBytes (n : Nat) : Reader Bytes := fun bytes =>
  if bytes.length < n then .error .short else .ok (bytes.splitAt n)

/-- The byte at the front. -/
def byte : Reader UInt8
  | [] => .error .short
  | b :: rest => .ok (b, rest)

/-- A number of little-endian bytes of a number. -/
def littleEndian : (width : Nat) → Nat → Bytes
  | 0, _ => []
  | width + 1, n => UInt8.ofNat (n % 256) :: littleEndian width (n / 256)

/-- The number of little-endian bytes. -/
def ofLittleEndian (bytes : Bytes) : Nat := bytes.foldr (fun b n => b.toNat + 256 * n) 0

instance : Format Bool where
  encode b := [if b then 1 else 0]
  reader := do
    let b ← byte
    if b = 0 then return false
    else if b = 1 then return true
    else throw (.badBool b)
  fits _ := true

instance : Format UInt64 where
  encode n := littleEndian 8 n.toNat
  reader := do
    let bytes ← takeBytes 8
    return UInt64.ofNat (ofLittleEndian bytes)
  fits _ := true

instance : Format Amount where
  encode a := littleEndian 16 a.toNat
  reader := do
    let bytes ← takeBytes 16
    match Amount.ofNat? (ofLittleEndian bytes) with
    | some a => return a
    | none => throw .short
  fits _ := true

instance : Format Height where
  encode h := encode h.number
  reader := Height.mk <$> reader
  fits _ := true

instance : Format Time where
  encode t := encode t.nanos
  reader := Time.mk <$> reader
  fits _ := true

/-! ### Texts, lists and optional values -/

/-- The count at the front. -/
def count : Reader Nat := do
  let bytes ← takeBytes 4
  return ofLittleEndian bytes

instance : Format String where
  encode s :=
    let bytes := Utf8.encode s
    littleEndian 4 bytes.length ++ bytes
  reader := do
    let n ← count
    let bytes ← takeBytes n
    match Utf8.decode bytes with
    | .ok s => return s
    | .error fault => throw (.badText fault)
  fits s := (Utf8.encode s).length ≤ maxCount

/-- A text can be stored if four bytes can count its own. -/
theorem fits_text_iff {s : String} : fits s = true ↔ (Utf8.encode s).length ≤ maxCount :=
  decide_eq_true_iff

/-- A number of values from the front. -/
def many {α : Type} (item : Reader α) : Nat → Reader (List α)
  | 0 => return []
  | n + 1 => do
    let a ← item
    let more ← many item n
    return a :: more

instance {α : Type} [Format α] : Format (List α) where
  encode items := littleEndian 4 items.length ++ items.flatMap encode
  reader := do
    let n ← count
    many reader n
  fits items := items.length ≤ maxCount && items.all fits

instance {α : Type} [Format α] : Format (Option α) where
  encode
    | none => [0]
    | some a => 1 :: encode a
  reader := do
    let b ← byte
    if b = 0 then return none
    else if b = 1 then some <$> reader
    else throw (.badOption b)
  fits item? := item?.all fits

end Chainlets.Stored
