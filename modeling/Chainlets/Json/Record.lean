import Chainlets.Json.Parser
import Chainlets.Clock
import Chainlets.Coin

/-!
# Typed values in JSON

How values of the module are written to and read from JSON. A record is written as an object with
its fields in order, and read from an object or from an array of the field values. Of an object,
fields that the record does not have are ignored, and a field that occurs twice is refused.

## Main definitions

* `Json.Format` — a type with a JSON form.
* `Json.record` — the object of named fields.
* `Json.fields?` — the values found for the named fields of a record.
* `Json.required`, `Json.optional` — the typed value of a field.
* `Json.print`, `Json.read?` — the JSON text of a typed value, and its reader.
-/

namespace Chainlets.Json

/-- A type with a JSON form. -/
class Format (α : Type) where
  /-- The JSON form of a value. -/
  toJson : α → Json
  /-- The value of a JSON form. -/
  ofJson? : Json → Option α

export Format (toJson ofJson?)

/-! ### Plain values -/

instance : Format String := ⟨text, text?⟩

instance : Format Bool where
  toJson b := .bool b
  ofJson?
    | .bool b => some b
    | _ => none

/-- The natural number that a value stands for. -/
def natural? : Json → Option Nat
  | .natural n => some n
  | _ => none

instance : Format UInt64 where
  toJson n := .natural n.toNat
  ofJson? j := j.natural?.bind Word.ofNat?

instance : Format Amount where
  toJson a := .natural a.toNat
  ofJson? j := j.natural?.bind Amount.ofNat?

instance : Format Height where
  toJson h := toJson h.number
  ofJson? j := (ofJson? j).map Height.mk

instance : Format Time where
  toJson t := toJson t.nanos
  ofJson? j := (ofJson? j).map Time.mk

instance {α : Type} [Format α] : Format (List α) where
  toJson items := .array (items.map toJson)
  ofJson?
    | .array items => items.mapM ofJson?
    | _ => none

instance {α : Type} [Format α] : Format (Option α) where
  toJson
    | none => .null
    | some a => toJson a
  ofJson?
    | .null => some none
    | j => (ofJson? j).map some

/-! ### Records -/

/-- The object of named fields. -/
def record (fields : List (String × Json)) : Json :=
  .object (fields.map fun (name, value) => (Utf8.encode name, value))

/-- Whether a name occurs at most once among named values. -/
def occursOnce (named : List (String × Json)) (name : String) : Bool :=
  (named.filter fun p => p.1 = name).length ≤ 1

/-- The values found for the named fields of a record, in the order of the names. An array has to
have all of them, except that it may leave out a number of the last ones. -/
def fields? (names : List String) (omittable : Nat) : Json → Option (List (Option Json))
  | .array items =>
    let missing := names.length - items.length
    if items.length ≤ names.length ∧ missing ≤ omittable then
      some (items.map some ++ List.replicate missing none)
    else none
  | .object fields => do
    let named ← fields.mapM fun (key, value) => (Utf8.decode? key).map fun name => (name, value)
    if names.all (occursOnce named) then
      some (names.map fun name => (named.find? fun p => p.1 = name).map (·.2))
    else none
  | _ => none

/-- The value of a field that has to be there. -/
def required {α : Type} [Format α] (field : Option Json) : Option α := field.bind ofJson?

/-- The value of a field that may be missing. -/
def optional {α : Type} [Format α] : (field : Option Json) → Option (Option α)
  | none => some none
  | some j => ofJson? j

/-! ### Texts -/

/-- The JSON text of a value. -/
def print {α : Type} [Format α] (a : α) : Bytes := (toJson a).render

/-- The value of a JSON text. -/
def read? {α : Type} [Format α] (bytes : Bytes) : Option α := (parse bytes).bind ofJson?

end Chainlets.Json
