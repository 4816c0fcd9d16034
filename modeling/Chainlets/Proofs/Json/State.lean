import Chainlets.Json.State
import Chainlets.Proofs.Json.Record

/-!
# State records are read back

A chain is restarted from the JSON text of a genesis state, and the reader takes more spellings than
the printer writes. It reads back everything that the printer writes: each record field by field, a
value that may be missing by its form, which is that of a missing one only if it is missing, and
numbers over the whole range of their type.

## Main results

* `Json.ofJson?_some` — a value that is there is not taken for a missing one.
* `Json.state_read_back` — **genesis states, stacks, chainlets and parameters are read back.**
-/

namespace Chainlets.Json

/-! ### Plain values -/

instance : Lawful Bool := ⟨fun _ => rfl⟩

instance : Lawful Amount where
  ofJson?_toJson a := Amount.ofNat?_toNat a

instance : Lawful Height where
  ofJson?_toJson h := congrArg (Option.map Height.mk) (Lawful.ofJson?_toJson h.number)

instance : Lawful Time where
  ofJson?_toJson t := congrArg (Option.map Time.mk) (Lawful.ofJson?_toJson t.nanos)

instance : Lawful ConsumerId where
  ofJson?_toJson id := congrArg (Option.map ConsumerId.mk) (Lawful.ofJson?_toJson id.text)

instance : Lawful Status where
  ofJson?_toJson status := by
    cases status with
    | online => exact (congrArg (Option.bind · status?) (text?_text "Online")).trans rfl
    | offline => exact (congrArg (Option.bind · status?) (text?_text "Offline")).trans rfl

/-! ### Lists and options -/

instance {α : Type} [Format α] [Lawful α] : Lawful (List α) where
  ofJson?_toJson items := by
    change (items.map toJson).mapM ofJson? = some items
    induction items with
    | nil => rfl
    | cons item items ih => simp [ih]

/-- A value whose form is not that of a missing one is told from a missing one. -/
theorem ofJson?_some {α : Type} [Format α] [Lawful α] {a : α} (h : toJson a ≠ .null) :
    ofJson? (toJson (some a)) = some (some a) := by
  have hread : (ofJson? (toJson a) : Option α).map some = some (some a) := by
    rw [Lawful.ofJson?_toJson, Option.map_some]
  change ofJson? (toJson a) = some (some a)
  generalize toJson a = j at h hread
  cases j with
  | null => exact absurd rfl h
  | _ => exact hread

instance : Lawful (Option ConsumerId) where
  ofJson?_toJson consumer? := by
    cases consumer? with
    | none => rfl
    | some consumer => exact ofJson?_some fun h => by cases h

/-- The value of a field that may be missing, and is there. -/
@[simp]
theorem optional_toJson {α : Type} [Format α] [Lawful (Option α)] (a? : Option α) :
    optional (some (toJson a?)) = some a? :=
  Lawful.ofJson?_toJson a?

/-! ### Records -/

instance : Lawful StackFees where
  ofJson?_toJson fees := by
    refine (bind_fields?_record (by simp) 0 _).trans ?_
    simp

instance : Lawful StackVersion where
  ofJson?_toJson v := by
    refine (bind_fields?_record (by simp) 0 _).trans ?_
    simp

instance : Lawful Stack where
  ofJson?_toJson stack := by
    refine (bind_fields?_record (by simp) 0 _).trans ?_
    simp

instance : Lawful PendingUpgrade where
  ofJson?_toJson upgrade := by
    refine (bind_fields?_record (by simp) 0 _).trans ?_
    simp

instance : Lawful (Option PendingUpgrade) where
  ofJson?_toJson upgrade? := by
    cases upgrade? with
    | none => rfl
    | some upgrade => exact ofJson?_some fun h => by cases h

instance : Lawful Chainlet where
  ofJson?_toJson c := by
    refine (bind_fields?_record (by simp [chainletFields]) 0 _).trans ?_
    simp [chainletFields]

instance : Lawful Params where
  ofJson?_toJson params := by
    refine (bind_fields?_record (by simp [paramFields]) 0 _).trans ?_
    simp [paramFields]

instance : Lawful Genesis where
  ofJson?_toJson g := by
    refine (bind_fields?_record (by simp) 0 _).trans ?_
    simp

/-! ### Texts -/

/-- **Genesis states, stacks, chainlets and parameters are read back** from their texts as they
were. -/
theorem state_read_back :
    (∀ g : Genesis, read? (print g) = some g) ∧
    (∀ stack : Stack, read? (print stack) = some stack) ∧
    (∀ c : Chainlet, read? (print c) = some c) ∧
    ∀ params : Params, read? (print params) = some params :=
  ⟨read?_print, read?_print, read?_print, read?_print⟩

end Chainlets.Json
