import Chainlets.Text.Decimal
import Chainlets.Text.Utf8

/-!
# JSON values

The value type of the wire format and of genesis files. It keeps what the module's readers look at:

* a string is the bytes it stands for, which need not be UTF-8 text;
* of a number, only whether it is a plain natural numeral, and then its value;
* an object is its list of fields, in order and with repetitions.

## Main definitions

* `Json`.
* `Json.text`, `Json.text?` — strings that are text.
* `Json.render` — the compact text of a value.
-/

namespace Chainlets

/-- A JSON value. -/
inductive Json where
  | null
  | bool (b : Bool)
  /-- A number written as a plain natural numeral. -/
  | natural (n : Nat)
  /-- A number with a sign, a fraction or an exponent. -/
  | otherNumber
  /-- A string, as the bytes it stands for. -/
  | string (content : Bytes)
  | array (items : List Json)
  | object (fields : List (Bytes × Json))

namespace Json

/-- The string that stands for a text. -/
def text (s : String) : Json := .string (Utf8.encode s)

/-- The text that a value stands for, if it is a string of UTF-8. -/
def text? : Json → Option String
  | .string content => Utf8.decode? content
  | _ => none

/-! ### Printing -/

/-- The ASCII bytes of a text. -/
def ascii (s : String) : Bytes := s.toList.map fun c => UInt8.ofNat c.toNat

/-- The bytes that stand for one byte of a string. Quotation marks, backslashes and control
characters are escaped, and nothing else. -/
def escape (b : UInt8) : Bytes :=
  if b = 0x22 then ascii "\\\""
  else if b = 0x5C then ascii "\\\\"
  else if b = 0x08 then ascii "\\b"
  else if b = 0x0C then ascii "\\f"
  else if b = 0x0A then ascii "\\n"
  else if b = 0x0D then ascii "\\r"
  else if b = 0x09 then ascii "\\t"
  else if b < 0x20 then ascii "\\u00" ++ (Bytes.hexDigits b).map fun c => UInt8.ofNat c.toNat
  else [b]

/-- The bytes of a string in quotation marks. -/
def quote (content : Bytes) : Bytes := 0x22 :: content.flatMap escape ++ [0x22]

mutual

/-- The compact text of a value. A number that is no plain natural numeral is written as minus
zero, since its value is not kept. -/
def render : Json → Bytes
  | .null => ascii "null"
  | .bool true => ascii "true"
  | .bool false => ascii "false"
  | .natural n => (Decimal.digits n).map fun c => UInt8.ofNat c.toNat
  | .otherNumber => ascii "-0"
  | .string content => quote content
  | .array [] => ascii "[]"
  | .array (item :: items) => 0x5B :: render item ++ renderItems items ++ [0x5D]
  | .object [] => ascii "\x7b\x7d"
  | .object ((key, value) :: fields) =>
    0x7B :: quote key ++ 0x3A :: render value ++ renderFields fields ++ [0x7D]

/-- The text of the items after the first one. -/
def renderItems : List Json → Bytes
  | [] => []
  | item :: items => 0x2C :: render item ++ renderItems items

/-- The text of the fields after the first one. -/
def renderFields : List (Bytes × Json) → Bytes
  | [] => []
  | (key, value) :: fields => 0x2C :: quote key ++ 0x3A :: render value ++ renderFields fields

end

end Json

end Chainlets
