import Chainlets.Json.Token

/-!
# Reading JSON

Tokens become a value by a machine with an explicit stack of the arrays and objects that are open,
so values may nest to any depth. Each token either fits the state or ends the reading.

## Main definitions

* `Json.Reading` — the states of the machine, with `Json.Reading.step`.
* `Json.parse` — the value of a text.
-/

namespace Chainlets.Json

/-- An array or object that is open, with what it holds so far, last first. -/
inductive Frame where
  /-- An array. -/
  | array (items : List Json)
  /-- An object, in which a value is due for a key. -/
  | object (fields : List (Bytes × Json)) (key : Bytes)

/-- What may come next. -/
inductive Reading where
  /-- A value. -/
  | valueDue (stack : List Frame)
  /-- The first item of an array, or its end. -/
  | firstItem (stack : List Frame)
  /-- A comma after an item, or the end of the array. -/
  | afterItem (items : List Json) (stack : List Frame)
  /-- The first key of an object, or its end. -/
  | firstKey (stack : List Frame)
  /-- A key after a comma. -/
  | keyDue (fields : List (Bytes × Json)) (stack : List Frame)
  /-- The colon after a key. -/
  | colonDue (fields : List (Bytes × Json)) (key : Bytes) (stack : List Frame)
  /-- A comma after a field, or the end of the object. -/
  | afterField (fields : List (Bytes × Json)) (stack : List Frame)
  /-- Nothing: the value is complete. -/
  | complete (value : Json)

namespace Reading

/-- The state after a value has been read inside the open arrays and objects. -/
def supply (value : Json) : List Frame → Reading
  | [] => .complete value
  | .array items :: stack => .afterItem (value :: items) stack
  | .object fields key :: stack => .afterField ((key, value) :: fields) stack

/-- The state after the first token of a value. -/
def begin? (stack : List Frame) : Token → Option Reading
  | .null => some (supply .null stack)
  | .bool b => some (supply (.bool b) stack)
  | .natural n => some (supply (.natural n) stack)
  | .otherNumber => some (supply .otherNumber stack)
  | .string content => some (supply (.string content) stack)
  | .openArray => some (.firstItem stack)
  | .openObject => some (.firstKey stack)
  | _ => none

/-- The state after a token, if the token fits. -/
def step : Reading → Token → Option Reading
  | .valueDue stack, token => begin? stack token
  | .firstItem stack, .closeArray => some (supply (.array []) stack)
  | .firstItem stack, token => begin? (.array [] :: stack) token
  | .afterItem items stack, .comma => some (.valueDue (.array items :: stack))
  | .afterItem items stack, .closeArray => some (supply (.array items.reverse) stack)
  | .firstKey stack, .closeObject => some (supply (.object []) stack)
  | .firstKey stack, .string key => some (.colonDue [] key stack)
  | .keyDue fields stack, .string key => some (.colonDue fields key stack)
  | .colonDue fields key stack, .colon => some (.valueDue (.object fields key :: stack))
  | .afterField fields stack, .comma => some (.keyDue fields stack)
  | .afterField fields stack, .closeObject => some (supply (.object fields.reverse) stack)
  | _, _ => none

/-- The value of a state in which nothing more is due. -/
def value? : Reading → Option Json
  | .complete value => some value
  | _ => none

end Reading

/-- The value of a list of tokens. -/
def ofTokens? (tokens : List Token) : Option Json :=
  (tokens.foldlM Reading.step (.valueDue [])).bind Reading.value?

/-- The value of a text. -/
def parse (text : Bytes) : Option Json := (Token.scan text).bind ofTokens?

end Chainlets.Json
