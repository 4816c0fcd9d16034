import Chainlets.Proofs.Store.Written
import Chainlets.Proofs.Stored.RoundTrip
import Chainlets.Store.Entry

/-!
# Families of values

The stacks, the chainlets and the consumers that wait are three families of values under names. A
state *shows* a map of a family when its bytes under the mark of the family are the stored forms of
the map's values under the bytes of the map's names, and nothing else is there. Then the typed
reads are lookups in the map, and the map's entries in the order of the names.

## Main definitions

* `Entry.mark` — the mark of a place.
* `Family` — a mark, and the places of the values.
* `Family.Shows` — a state holds exactly the values of a map.

## Main results

* `Family.Shows.read?`, `Family.Shows.readAll` — what typed reads come to.
* `Family.Shows.put`, `Family.Shows.drop` — what updates do to the map.
* `Family.Shows.unique` — a state shows at most one map.
-/

namespace Chainlets

open Stored (Format Lawful encode fits)

/-- The mark that the key of a place begins with. -/
def Entry.mark : Entry → UInt8
  | .stack _ => stackMark
  | .chainlet _ => chainletMark
  | .chainletCount => chainletCountMark
  | .params => paramsMark
  | .pendingInit _ => pendingInitMark

/-- A place with another mark lies nowhere under a mark. -/
theorem Entry.key_ne {entry : Entry} {mark : UInt8} (h : entry.mark ≠ mark) (k : Bytes) :
    entry.key ≠ mark :: k := by
  intro heq
  refine h ?_
  cases entry <;> exact (List.cons.inj heq).1

/-- A family of values, each under a name. -/
structure Family (α : Type) where
  /-- The mark that the keys begin with. -/
  mark : UInt8
  /-- The place of the value with a name. -/
  entry : String → Entry
  /-- The key of a place is the mark and the bytes of the name. -/
  key_entry : ∀ name, (entry name).key = mark :: Utf8.encode name

namespace Family

/-- The stacks, by name. -/
def catalog : Family Stack := ⟨Entry.stackMark, .stack, fun _ => rfl⟩

/-- The chainlets, by chain id. -/
def chainlets : Family Chainlet := ⟨Entry.chainletMark, .chainlet, fun _ => rfl⟩

/-- The consumers that wait for their first validators, by chain id. -/
def waiting : Family ConsumerId := ⟨Entry.pendingInitMark, .pendingInit, fun _ => rfl⟩

variable {α κ κ' : Type} [Format α] [Readable κ] [Readable κ']

/-- A state holds exactly the values of a map of a family. -/
structure Shows (F : Family α) (r : κ) (m : OrderedMap String α) : Prop where
  /-- What lies under the bytes of a name is the stored form of the value with the name. -/
  get? : ∀ name, Readable.get? r (F.entry name).key = (m.get? name).map encode
  /-- Every key under the mark is the place of a name. -/
  named : ∀ {k v}, Readable.get? r (F.mark :: k) = some v → ∃ name, k = Utf8.encode name
  /-- Every value can be stored. -/
  fits : ∀ {name a}, m.get? name = some a → Stored.fits a = true

namespace Shows

variable {F : Family α} {r : κ} {r' : κ'} {m m' : OrderedMap String α}

/-- What a state shows of a family depends on the keys under the mark alone. -/
theorem congr (h : F.Shows r m)
    (hget : ∀ k, Readable.get? r' (F.mark :: k) = Readable.get? r (F.mark :: k)) :
    F.Shows r' m where
  get? name := by rw [F.key_entry, hget, ← F.key_entry, h.get?]
  named {k v} hv := h.named (by rw [← hget, hv])
  fits := h.fits

/-- A state without keys under the mark shows the empty map. -/
theorem empty (h : ∀ k, Readable.get? r (F.mark :: k) = none) :
    F.Shows r (∅ : OrderedMap String α) where
  get? name := by rw [F.key_entry, h]; rfl
  named {k v} hv := by rw [h] at hv; cases hv
  fits {name a} ha := by cases ha

/-! ### Updates -/

variable {s : Store} {u : Updates}

/-- A value that is written takes its place in the map. -/
theorem put (h : F.Shows (Overlay.mk s u) m) {name : String} {a : α}
    (ha : Stored.fits a = true) :
    F.Shows (Overlay.mk s (u.insert (F.entry name).key (encode a))) (m.insert name a) where
  get? name' := by
    rw [Overlay.get?_of_insert, F.key_entry, F.key_entry, OrderedMap.get?_insert]
    by_cases hname : name' = name
    · rw [if_pos (by rw [hname]), if_pos hname]
      rfl
    · rw [if_neg fun heq => hname (Utf8.encode_injective (List.cons.inj heq).2), if_neg hname,
        ← F.key_entry, h.get?]
  named {k v} hv := by
    rw [Overlay.get?_of_insert, F.key_entry] at hv
    split at hv
    next heq => exact ⟨name, (List.cons.inj heq).2⟩
    next => exact h.named hv
  fits {name' b} hb := by
    rcases OrderedMap.get?_insert_cases hb with ⟨-, rfl⟩ | hb
    · exact ha
    · exact h.fits hb

/-- A value that is deleted leaves the map. -/
theorem drop (h : F.Shows (Overlay.mk s u) m) (name : String) :
    F.Shows (Overlay.mk s (u.delete (F.entry name).key)) (m.erase name) where
  get? name' := by
    rw [Overlay.get?_of_delete, F.key_entry, F.key_entry, OrderedMap.get?_erase]
    by_cases hname : name' = name
    · rw [if_pos (by rw [hname]), if_pos hname]
      rfl
    · rw [if_neg fun heq => hname (Utf8.encode_injective (List.cons.inj heq).2), if_neg hname,
        ← F.key_entry, h.get?]
  named {k v} hv := by
    rw [Overlay.get?_of_delete, F.key_entry] at hv
    split at hv
    next => cases hv
    next => exact h.named hv
  fits {name' b} hb := h.fits (OrderedMap.get?_of_get?_erase hb)

/-! ### Typed reads -/

/-- A typed read is a lookup in the map. -/
theorem read? [Lawful α] (h : F.Shows r m) (name : String) :
    Readable.read? r (F.entry name) = .ok (m.get? name) := by
  rw [Readable.read?, h.get?]
  cases hm : m.get? name with
  | none => rfl
  | some a =>
    simp only [Option.map_some, Stored.decode_encode (h.fits hm)]
    rfl

/-- A state shows at most one map. -/
theorem unique [Lawful α] (h : F.Shows r m) (h' : F.Shows r m') : m = m' := by
  refine OrderedMap.ext_get? fun name => ?_
  have hread := h.read? name
  rw [h'.read? name] at hread
  exact (Except.ok.inj hread).symm

/-- The entries under the mark are those of the map, name by name. -/
theorem scan [LawfulReadable κ] (h : F.Shows r m) :
    Readable.scan r [F.mark] =
      m.toList.map fun e => (F.mark :: Utf8.encode e.1, encode e.2) := by
  refine OrderedMap.toList_map_of_get? (ascending_scan r [F.mark]) m
    (fun name => F.mark :: Utf8.encode name) encode (fun hlt => ?_) fun ⟨k, v⟩ => ?_
  · rw [Utf8.compare_cons, Std.ReflOrd.compare_self, Utf8.compare_encode hlt]
    rfl
  · rw [mem_scan]
    constructor
    · rintro ⟨hfront, hv⟩
      obtain ⟨k', rfl⟩ := Bytes.startsWith_mark_iff.1 hfront
      obtain ⟨name, rfl⟩ := h.named hv
      have hget := h.get? name
      rw [F.key_entry, hv] at hget
      obtain ⟨a, ha, rfl⟩ := Option.map_eq_some_iff.1 hget.symm
      exact ⟨name, a, ha, rfl⟩
    · rintro ⟨name, a, ha, heq⟩
      cases heq
      refine ⟨Bytes.startsWith_mark_iff.2 ⟨_, rfl⟩, ?_⟩
      rw [← F.key_entry, h.get?, ha]
      rfl

omit [Format α] in
/-- A reader that takes every value back from what was written of it takes the list back. -/
theorem mapM_map_eq_ok {β γ ε : Type} {f : β → γ} {g : γ → Except ε β} {l : List β}
    (h : ∀ b ∈ l, g (f b) = .ok b) : (l.map f).mapM g = .ok l := by
  induction l with
  | nil => rfl
  | cons b l ih =>
    rw [List.map_cons, List.mapM_cons, h b List.mem_cons_self,
      ih fun c hc => h c (List.mem_cons_of_mem _ hc)]
    rfl

/-- **A typed read of the family is the list of the map's entries.** -/
theorem readAll [Lawful α] [LawfulReadable κ] (h : F.Shows r m) :
    Readable.readAll r F.mark F.entry = .ok m.toList := by
  rw [Readable.readAll, h.scan]
  refine mapM_map_eq_ok fun e he => ?_
  have hfits : Stored.fits e.2 = true := h.fits (OrderedMap.get?_eq_some_iff.2 he)
  simp only [List.drop_succ_cons, List.drop_zero, Utf8.decodeLossy_encode,
    Stored.decode_encode hfits]
  rfl

end Shows

end Family

end Chainlets
