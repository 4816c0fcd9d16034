import Chainlets.Proofs.Data.OrderedMap
import Chainlets.Store.Basic

/-!
# Written updates

An overlay shows what the store holds once the updates are written: every lookup and every scan
agree. This is what lets a host hand a tree that was derived from an overlay to readers of the
store.

## Main definitions

* `LawfulReadable` — scans show exactly what lookups show.

## Main results

* `Readable.scan_congr` — a scan is determined by the lookups under its beginning.
* `Overlay.get?_of_write` — **what is shown before the updates are written is what is there
  afterwards.**
-/

namespace Chainlets

/-- A state of which scans show exactly what lookups show, once each and in order. -/
class LawfulReadable (κ : Type) [Readable κ] : Prop where
  mem_scan : ∀ {r : κ} {front k v : Bytes},
    (k, v) ∈ Readable.scan r front ↔
      Bytes.startsWith front k = true ∧ Readable.get? r k = some v
  ascending_scan : ∀ (r : κ) (front : Bytes),
    (Readable.scan r front).Pairwise fun p q => compare p.1 q.1 = .lt

export LawfulReadable (mem_scan ascending_scan)

/-- What begins with a mark is the mark and something after it. -/
theorem Bytes.startsWith_mark_iff {mark : UInt8} {k : Bytes} :
    Bytes.startsWith [mark] k = true ↔ ∃ k', k = mark :: k' := by
  cases k with
  | nil => simp [Bytes.startsWith]
  | cons b k =>
    have hfront : Bytes.startsWith [mark] (b :: k) = true ↔ mark = b := by simp [Bytes.startsWith]
    rw [hfront]
    exact ⟨fun h => ⟨k, by rw [h]⟩, fun ⟨_, h⟩ => (List.cons.inj h).1.symm⟩

/-- A scan is determined by the lookups under its beginning. -/
theorem Readable.scan_congr {κ κ' : Type} [Readable κ] [LawfulReadable κ] [Readable κ']
    [LawfulReadable κ'] {r : κ} {r' : κ'} {front : Bytes}
    (h : ∀ k, Bytes.startsWith front k = true → Readable.get? r k = Readable.get? r' k) :
    Readable.scan r front = Readable.scan r' front := by
  refine OrderedMap.toList_eq_of_mem_iff (ascending_scan r front) (ascending_scan r' front)
    fun ⟨k, v⟩ => ?_
  rw [mem_scan, mem_scan]
  constructor
  · rintro ⟨hk, hv⟩
    exact ⟨hk, h k hk ▸ hv⟩
  · rintro ⟨hk, hv⟩
    exact ⟨hk, (h k hk).trans hv⟩

/-! ### The store -/

namespace Store

instance : LawfulReadable Store where
  mem_scan {s front k v} := by
    change (k, v) ∈ s.entries.toList.filter (fun e => Bytes.startsWith front e.1) ↔
      Bytes.startsWith front k = true ∧ s.entries.get? k = some v
    rw [List.mem_filter, OrderedMap.get?_eq_some_iff, and_comm]
  ascending_scan s _ := s.entries.ascending.filter _

theorem entries_foldl_set (l : List (Bytes × Bytes)) (s : Store) :
    (l.foldl (fun s (k, v) => s.set k v) s).entries =
      l.foldl (fun m p => m.insert p.1 p.2) s.entries := by
  induction l generalizing s with
  | nil => rfl
  | cons p l ih => exact ih (s.set p.1 p.2)

theorem entries_foldl_delete (ks : List Bytes) (s : Store) :
    (ks.foldl delete s).entries = ks.foldl OrderedMap.erase s.entries := by
  induction ks generalizing s with
  | nil => rfl
  | cons k ks ih => exact ih (s.delete k)

/-- A lookup after updates are written: deletions first, new values second, the store last. -/
theorem get?_write (s : Store) (u : Updates) (k : Bytes) :
    Readable.get? (s.write u) k =
      if u.deletes.contains k = true then none else (u.inserts.get? k).or (Readable.get? s k) := by
  change (s.write u).entries.get? k = _
  rw [write, entries_foldl_delete, OrderedMap.get?_foldl_erase, entries_foldl_set,
    OrderedMap.get?_foldl_insert (OrderedMap.distinct_of_ascending u.inserts.ascending)]
  simp only [OrderedMap.mem_keys_iff]
  rfl

end Store

/-! ### The overlay -/

namespace Overlay

theorem get?_eq (o : Overlay) (k : Bytes) :
    Readable.get? o k =
      if o.updates.deletes.contains k = true then none
      else (o.updates.inserts.get? k).or (Readable.get? o.base k) := by
  change o.get? k = _
  rw [Overlay.get?]
  cases o.updates.inserts.get? k <;> rfl

/-- **What an overlay shows is what the store holds once the updates are written.** -/
theorem get?_of_write (s : Store) (u : Updates) (k : Bytes) :
    Readable.get? (s.write u) k = Readable.get? (Overlay.mk s u) k := by
  rw [Store.get?_write, get?_eq]

/-- Without updates, an overlay shows the store. -/
theorem get?_of_empty (s : Store) (k : Bytes) :
    Readable.get? (Overlay.mk s ∅) k = Readable.get? s k := rfl

theorem get?_of_insert (s : Store) (u : Updates) (k k' v : Bytes) :
    Readable.get? (Overlay.mk s (u.insert k v)) k' =
      if k' = k then some v else Readable.get? (Overlay.mk s u) k' := get?_insert s u k k' v

theorem get?_of_delete (s : Store) (u : Updates) (k k' : Bytes) :
    Readable.get? (Overlay.mk s (u.delete k)) k' =
      if k' = k then none else Readable.get? (Overlay.mk s u) k' := get?_delete s u k k'

/-- Entries that do not begin with given bytes are passed over when updates are merged in. -/
theorem foldl_insert_filter (front : Bytes) (l : List (Bytes × Bytes))
    (m : OrderedMap Bytes Bytes) :
    l.foldl (fun m (k, v) => if Bytes.startsWith front k then m.insert k v else m) m =
      (l.filter fun e => Bytes.startsWith front e.1).foldl (fun m p => m.insert p.1 p.2) m := by
  induction l generalizing m with
  | nil => rfl
  | cons p l ih =>
    obtain ⟨k, v⟩ := p
    rw [List.foldl_cons, List.filter_cons, ih]
    by_cases hk : Bytes.startsWith front k = true
    · simp only [hk, if_true, List.foldl_cons]
    · simp only [hk, if_false, Bool.false_eq_true]

/-- The scan of an overlay, as a map that is looked up in. -/
theorem get?_scan (o : Overlay) (front k : Bytes) :
    OrderedMap.find k (o.scan front) =
      if Bytes.startsWith front k = true then Readable.get? o k else none := by
  have hstored : OrderedMap.find k (Readable.scan o.base front) =
      if Bytes.startsWith front k = true then Readable.get? o.base k else none :=
    OrderedMap.find_filter (Bytes.startsWith front) k o.base.entries.toList
  have hinserts : OrderedMap.find k
      (o.updates.inserts.toList.filter fun e => Bytes.startsWith front e.1) =
      if Bytes.startsWith front k = true then o.updates.inserts.get? k else none :=
    OrderedMap.find_filter (Bytes.startsWith front) k o.updates.inserts.toList
  rw [get?_eq]
  change OrderedMap.get? (List.foldl OrderedMap.erase (List.foldl _ _ _) _) k = _
  rw [OrderedMap.get?_foldl_erase, foldl_insert_filter,
    OrderedMap.get?_foldl_insert
      (OrderedMap.distinct_of_ascending (o.updates.inserts.ascending.filter _)),
    OrderedMap.get?_ofList (ascending_scan o.base front), hstored, hinserts]
  simp only [OrderedMap.mem_keys_iff]
  by_cases hk : Bytes.startsWith front k = true
  · simp only [hk, if_true]
  · simp [hk]

instance : LawfulReadable Overlay where
  mem_scan {o front k v} := by
    have hfind := get?_scan o front k
    have hiff : (k, v) ∈ o.scan front ↔ OrderedMap.find k (o.scan front) = some v :=
      OrderedMap.get?_eq_some_iff.symm
    change (k, v) ∈ o.scan front ↔ _
    rw [hiff, hfind]
    split
    next hk => exact ⟨fun h => ⟨hk, h⟩, fun h => h.2⟩
    next hk => exact ⟨fun h => by simp at h, fun h => absurd h.1 hk⟩
  ascending_scan o front := OrderedMap.ascending _

end Overlay

end Chainlets
