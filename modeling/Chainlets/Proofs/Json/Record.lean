import Mathlib.Data.List.Nodup
import Chainlets.Json.Record
import Chainlets.Proofs.Json.RoundTrip
import Chainlets.Proofs.Text.RoundTrip

/-!
# Typed values are read back

A type has a lawful JSON form if its values are read back from their JSON forms, and then they are
read back from their texts too. A record is read back from its own object field by field: the names
of the fields are told apart by their bytes, so each field is found under its name, once.

## Main definitions

* `Json.Lawful` — a JSON form from which values are read back.

## Main results

* `Json.fields?_record` — **the fields of a record are found in its object.**
* `Json.read?_print` — **printed typed values are read back.**
-/

namespace Chainlets.Json

/-- A JSON form from which values are read back. -/
class Lawful (α : Type) [Format α] : Prop where
  ofJson?_toJson : ∀ a : α, ofJson? (toJson a) = some a

attribute [simp] Lawful.ofJson?_toJson

/-! ### Plain values -/

@[simp]
theorem text?_text (s : String) : (text s).text? = some s := by
  rw [text, text?, Utf8.decode?, Utf8.decode_encode]
  rfl

instance : Lawful String := ⟨text?_text⟩

instance : Lawful UInt64 where
  ofJson?_toJson n := Word.ofNat?_toNat n

/-- The value of a field that is there, and is read back. -/
@[simp]
theorem required_toJson {α : Type} [Format α] [Lawful α] (a : α) :
    required (some (toJson a)) = some a :=
  Lawful.ofJson?_toJson a

/-! ### Records -/

section Records

variable {fields : List (String × Json)}

theorem mapM_record (fields : List (String × Json)) :
    (fields.map fun (name, value) => (Utf8.encode name, value)).mapM
      (fun (key, value) => (Utf8.decode? key).map fun name => (name, value)) = some fields := by
  induction fields with
  | nil => rfl
  | cons field fields ih =>
    have hdecode : Utf8.decode? (Utf8.encode field.1) = some field.1 := text?_text field.1
    rw [List.map_cons, List.mapM_cons, ih]
    simp [hdecode]

theorem occursOnce_of_nodup (hnodup : (fields.map (·.1)).Nodup) (name : String) :
    occursOnce fields name = true := by
  have hcount := List.nodup_iff_count_le_one.1 hnodup name
  rw [List.count_eq_countP, List.countP_map, List.countP_eq_length_filter] at hcount
  rw [occursOnce, decide_eq_true_eq]
  exact hcount

theorem find?_of_nodup (hnodup : (fields.map (·.1)).Nodup) {field : String × Json}
    (h : field ∈ fields) : fields.find? (fun p => p.1 = field.1) = some field := by
  cases hfind : fields.find? fun p => p.1 = field.1 with
  | none => simpa using List.find?_eq_none.1 hfind field h
  | some p =>
    have hname : p.1 = field.1 := by simpa using List.find?_some hfind
    have hmem : p ∈ fields := List.mem_of_find?_eq_some hfind
    rw [List.inj_on_of_nodup_map hnodup hmem h hname]

/-- **The fields of a record are found in its object**, if they have different names. -/
theorem fields?_record (hnodup : (fields.map (·.1)).Nodup) (omittable : Nat) :
    fields? (fields.map (·.1)) omittable (record fields) = some (fields.map fun p => some p.2) := by
  have honce : (fields.map (·.1)).all (occursOnce fields) = true :=
    List.all_eq_true.2 fun name _ => occursOnce_of_nodup hnodup name
  rw [record, fields?, mapM_record]
  simp only [Option.bind_eq_bind, Option.bind_some, honce, if_true, List.map_map]
  refine congrArg some (List.map_congr_left fun field h => ?_)
  rw [Function.comp_apply, find?_of_nodup hnodup h]
  rfl

/-- What is read of a record is read of the values of its fields. -/
theorem bind_fields?_record {β : Type} (hnodup : (fields.map (·.1)).Nodup) (omittable : Nat)
    (f : List (Option Json) → Option β) :
    (fields? (fields.map (·.1)) omittable (record fields)).bind f =
      f (fields.map fun p => some p.2) := by
  rw [fields?_record hnodup, Option.bind_some]

end Records

/-! ### Texts -/

/-- **Printed typed values are read back.** -/
@[simp]
theorem read?_print {α : Type} [Format α] [Lawful α] (a : α) : read? (print a) = some a := by
  rw [read?, print, parse_render]
  exact Lawful.ofJson?_toJson a

end Chainlets.Json
