import Chainlets.Data.Bytes
import Chainlets.Data.OrderedMap

/-!
# The store, buffered updates, and the overlay of both

The committed state is a store of bytes under bytes. An execution does not write to it; it buffers
updates, and reads through an *overlay*: the updates first, the store second. Writing the updates
into the store afterwards changes nothing that a reader of the overlay could have seen.

## Main definitions

* `Store`, with `Store.write`.
* `Updates` — insertions and deletions, never both for one key.
* `Overlay` — a store with updates that are not written yet.
* `Readable` — what reads need: lookups, and scans of the keys with a common beginning.

## Main results

* `Updates.Consistent` is kept by `Updates.insert` and `Updates.delete`.
* `Store.get?_set`, `Store.get?_delete` — lookups after a change of the store.
* `Overlay.get?_insert`, `Overlay.get?_delete` — the same for a store with updates: what is buffered
  is seen at once.
-/

namespace Chainlets

/-- Something that state can be read from. -/
class Readable (κ : Type) where
  /-- The value stored under a key. -/
  get? : κ → Bytes → Option Bytes
  /-- The entries whose keys begin with given bytes, in ascending key order. -/
  scan : κ → Bytes → List (Bytes × Bytes)

/-! ### Updates -/

/-- Updates that have not been written yet. -/
structure Updates where
  /-- The values to be written, by key. -/
  inserts : OrderedMap Bytes Bytes
  /-- The keys to be deleted. -/
  deletes : OrderedSet Bytes
deriving DecidableEq

namespace Updates

/-- No updates. -/
def empty : Updates := ⟨∅, ∅⟩

instance : EmptyCollection Updates := ⟨empty⟩

instance : Inhabited Updates := ⟨empty⟩

/-- The updates with a value to be written. It takes the place of a deletion of its key. -/
def insert (u : Updates) (k v : Bytes) : Updates := ⟨u.inserts.insert k v, u.deletes.erase k⟩

/-- The updates with a key to be deleted. It takes the place of a value for the key. -/
def delete (u : Updates) (k : Bytes) : Updates := ⟨u.inserts.erase k, u.deletes.add k⟩

/-- Whether there is nothing to be written. -/
def isEmpty (u : Updates) : Bool := u.inserts.isEmpty && u.deletes.isEmpty

/-- No key has both a value to be written and a deletion. -/
def Consistent (u : Updates) : Prop :=
  ∀ k, u.inserts.get? k = none ∨ OrderedMap.get? u.deletes k = none

theorem consistent_empty : (∅ : Updates).Consistent := fun _ => .inl rfl

theorem Consistent.insert {u : Updates} (h : u.Consistent) (k v : Bytes) :
    (u.insert k v).Consistent := fun k' => by
  by_cases hk : k' = k
  · subst hk
    exact .inr (OrderedMap.get?_erase_self ..)
  · exact (h k').imp
      (fun h => (OrderedMap.get?_insert_of_ne _ v hk).trans h)
      (fun h => (OrderedMap.get?_erase_of_ne _ hk).trans h)

theorem Consistent.delete {u : Updates} (h : u.Consistent) (k : Bytes) :
    (u.delete k).Consistent := fun k' => by
  by_cases hk : k' = k
  · subst hk
    exact .inl (OrderedMap.get?_erase_self ..)
  · exact (h k').imp
      (fun h => (OrderedMap.get?_erase_of_ne _ hk).trans h)
      (fun h => (OrderedMap.get?_insert_of_ne _ () hk).trans h)

end Updates

/-! ### The store -/

/-- The committed state. -/
structure Store where
  /-- The values by key. -/
  entries : OrderedMap Bytes Bytes
deriving DecidableEq

namespace Store

/-- The store without entries. -/
def empty : Store := ⟨∅⟩

instance : EmptyCollection Store := ⟨empty⟩

instance : Inhabited Store := ⟨empty⟩

/-- The store with one value written. -/
def set (s : Store) (k v : Bytes) : Store := ⟨s.entries.insert k v⟩

/-- The store with one key deleted. -/
def delete (s : Store) (k : Bytes) : Store := ⟨s.entries.erase k⟩

/-- The store with updates written: the values first, then the deletions. -/
def write (s : Store) (u : Updates) : Store :=
  let written := u.inserts.toList.foldl (fun s (k, v) => s.set k v) s
  u.deletes.keys.foldl delete written

instance : Readable Store where
  get? s k := s.entries.get? k
  scan s front := s.entries.toList.filter fun (k, _) => Bytes.startsWith front k

/-- A lookup after a value is written. -/
theorem get?_set (s : Store) (k k' v : Bytes) :
    Readable.get? (s.set k v) k' = if k' = k then some v else Readable.get? s k' :=
  OrderedMap.get?_insert s.entries k k' v

/-- A lookup after a key is deleted. -/
theorem get?_delete (s : Store) (k k' : Bytes) :
    Readable.get? (s.delete k) k' = if k' = k then none else Readable.get? s k' :=
  OrderedMap.get?_erase s.entries k k'

end Store

/-! ### The overlay -/

/-- A store with updates that are not written yet. -/
structure Overlay where
  /-- The committed state. -/
  base : Store
  /-- The updates. -/
  updates : Updates
deriving DecidableEq

namespace Overlay

/-- A deleted key has no value, one with a new value has that value, and any other has the value of
the store. -/
def get? (o : Overlay) (k : Bytes) : Option Bytes :=
  if o.updates.deletes.contains k then none
  else
    match o.updates.inserts.get? k with
    | some v => some v
    | none => Readable.get? o.base k

/-- The entries of the store whose keys begin with given bytes, with the updates merged in. -/
def scan (o : Overlay) (front : Bytes) : List (Bytes × Bytes) :=
  let stored := OrderedMap.ofList (Readable.scan o.base front)
  let inserted := o.updates.inserts.toList.foldl
    (fun m (k, v) => if Bytes.startsWith front k then m.insert k v else m) stored
  (o.updates.deletes.keys.foldl OrderedMap.erase inserted).toList

instance : Readable Overlay := ⟨get?, scan⟩

/-- A lookup after an insertion is buffered. -/
theorem get?_insert (base : Store) (u : Updates) (k k' v : Bytes) :
    (Overlay.mk base (u.insert k v)).get? k' =
      if k' = k then some v else (Overlay.mk base u).get? k' := by
  by_cases h : k' = k
  · subst h
    simp [get?, Updates.insert, OrderedMap.contains]
  · rw [if_neg h, get?, get?, OrderedMap.contains, OrderedMap.contains, Updates.insert,
      OrderedMap.get?_insert_of_ne _ _ h, OrderedMap.get?_erase_of_ne _ h]

/-- A lookup after a deletion is buffered. -/
theorem get?_delete (base : Store) (u : Updates) (k k' : Bytes) :
    (Overlay.mk base (u.delete k)).get? k' =
      if k' = k then none else (Overlay.mk base u).get? k' := by
  by_cases h : k' = k
  · subst h
    simp [get?, Updates.delete, OrderedSet.add, OrderedMap.contains]
  · rw [if_neg h, get?, get?, OrderedMap.contains, OrderedMap.contains, Updates.delete,
      OrderedSet.add, OrderedMap.get?_insert_of_ne _ _ h, OrderedMap.get?_erase_of_ne _ h]

end Overlay

end Chainlets
