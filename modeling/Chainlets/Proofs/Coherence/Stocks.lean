import Chainlets.Proofs.VersionTree.Rebuild

/-!
# The stacks that a state holds

The version tree is derived from what lies under the mark of the stacks. This module says when that
is in order, key by key, and when updates leave it as it is. Both are stated for every store at
once, because contexts that are open at the same time have the store written under them.

## Main definitions

* `Stocked` — everything under the mark is a well-formed stack under its own name.
* `Updates.Stocking` — updates that keep every store stocked.
* `SameStacks` — updates that show the same stacks over every store.

## Main results

* `Stocked.exists_catalog` — a stocked state shows a well-formed catalog.
* `SameStacks.rebuild` — the rebuilt tree is the same.
-/

namespace Chainlets

/-! ### Stocked states -/

/-- Everything under the mark of the stacks is a well-formed stack under its own name. -/
def Stocked {κ : Type} [Readable κ] (r : κ) : Prop :=
  ∀ k v, Readable.get? r (Entry.stackMark :: k) = some v →
    ∃ stack : Stack, k = Utf8.encode stack.name ∧ v = Stored.encode stack ∧
      Stored.fits stack = true ∧ stack.WellFormed

section

variable {κ : Type} [Readable κ] {r : κ}

/-- The entries of a stocked state are those of a list of well-formed stacks. -/
theorem Stocked.exists_scan [LawfulReadable κ] (h : Stocked r) :
    ∃ l : List Stack, (∀ stack ∈ l, Stored.fits stack = true ∧ stack.WellFormed) ∧
      Readable.scan r [Entry.stackMark] =
        l.map fun stack => (Entry.stackMark :: Utf8.encode stack.name, Stored.encode stack) := by
  have hmem : ∀ e ∈ Readable.scan r [Entry.stackMark], ∃ stack : Stack,
      (Stored.fits stack = true ∧ stack.WellFormed) ∧
        e = (Entry.stackMark :: Utf8.encode stack.name, Stored.encode stack) := by
    rintro ⟨k, v⟩ he
    obtain ⟨hfront, hv⟩ := mem_scan.1 he
    obtain ⟨k', rfl⟩ := Bytes.startsWith_mark_iff.1 hfront
    obtain ⟨stack, rfl, rfl, hfits, hwell⟩ := h _ _ hv
    exact ⟨stack, ⟨hfits, hwell⟩, rfl⟩
  generalize Readable.scan r [Entry.stackMark] = entries at hmem
  induction entries with
  | nil => exact ⟨[], by simp, rfl⟩
  | cons e entries ih =>
    obtain ⟨stack, hstack, rfl⟩ := hmem e List.mem_cons_self
    obtain ⟨l, hl, rfl⟩ := ih fun e he => hmem e (List.mem_cons_of_mem _ he)
    refine ⟨stack :: l, ?_, rfl⟩
    simpa using ⟨hstack, hl⟩

/-- **A stocked state shows a well-formed catalog.** -/
theorem Stocked.exists_catalog [LawfulReadable κ] (h : Stocked r) :
    ∃ catalog : Catalog, Family.catalog.Shows r catalog ∧ Catalog.WellFormed catalog := by
  obtain ⟨l, hl, hscan⟩ := h.exists_scan
  have hnames : l.Pairwise fun stack stack' => stack.name ≠ stack'.name := by
    have hkeys := OrderedMap.distinct_of_ascending (ascending_scan r [Entry.stackMark])
    rw [hscan, List.pairwise_map] at hkeys
    exact hkeys.imp fun hne heq => hne (by rw [heq])
  have hget : ∀ name stack, (OrderedMap.fileBy (·.name) l).get? name = some stack ↔
      stack ∈ l ∧ stack.name = name := fun _ _ => OrderedMap.get?_fileBy_eq_some_iff hnames
  have hread : ∀ k v, Readable.get? r (Entry.stackMark :: k) = some v ↔
      ∃ stack ∈ l, k = Utf8.encode stack.name ∧ v = Stored.encode stack := by
    intro k v
    have hmem : (Entry.stackMark :: k, v) ∈ Readable.scan r [Entry.stackMark] ↔
        Readable.get? r (Entry.stackMark :: k) = some v := by
      rw [mem_scan, and_iff_right (Bytes.startsWith_mark_iff.2 ⟨k, rfl⟩)]
    rw [← hmem, hscan, List.mem_map]
    simp [eq_comm]
  refine ⟨OrderedMap.fileBy (·.name) l, ⟨fun name => ?_, fun {k v} hv => ?_,
    fun {name stack} hstack => ?_⟩, fun {name stack} hstack => ?_⟩
  · change Readable.get? r (Entry.stackMark :: Utf8.encode name) = _
    refine Option.ext fun v => ?_
    rw [hread, Option.map_eq_some_iff]
    constructor
    · rintro ⟨stack, hmem, hname, rfl⟩
      exact ⟨stack, (hget _ _).2 ⟨hmem, (Utf8.encode_injective hname).symm⟩, rfl⟩
    · rintro ⟨stack, hstack, rfl⟩
      obtain ⟨hmem, rfl⟩ := (hget _ _).1 hstack
      exact ⟨stack, hmem, rfl, rfl⟩
  · obtain ⟨stack, -, rfl, -⟩ := (hread k v).1 hv
    exact ⟨stack.name, rfl⟩
  · exact (hl stack ((hget _ _).1 hstack).1).1
  · obtain ⟨hmem, rfl⟩ := (hget _ _).1 hstack
    exact ⟨rfl, (hl stack hmem).2⟩

/-- The tree of a stocked state can be rebuilt. -/
theorem Stocked.rebuild_ok [LawfulReadable κ] (h : Stocked r) :
    ∃ t, VersionTree.rebuild r = .ok t := by
  obtain ⟨catalog, hshows, hwf⟩ := h.exists_catalog
  obtain ⟨t, hok, -⟩ := VersionTree.rebuild_ok hshows hwf
  exact ⟨t, hok⟩

end

/-! ### Updates -/

/-- Updates show the same stacks over every store. -/
def SameStacks (u u' : Updates) : Prop :=
  ∀ (s : Store) (k : Bytes), Readable.get? (Overlay.mk s u') (Entry.stackMark :: k) =
    Readable.get? (Overlay.mk s u) (Entry.stackMark :: k)

/-- Updates over a stocked store are stocked. -/
def Updates.Stocking (u : Updates) : Prop := ∀ s : Store, Stocked s → Stocked (Overlay.mk s u)

theorem Stocked.congr {κ κ' : Type} [Readable κ] [Readable κ'] {r : κ} {r' : κ'} (h : Stocked r)
    (hget : ∀ k, Readable.get? r' (Entry.stackMark :: k) =
      Readable.get? r (Entry.stackMark :: k)) : Stocked r' :=
  fun k v hv => h k v (by rw [← hget, hv])

theorem stocked_empty : Stocked (∅ : Store) := fun _ _ hv => by cases hv

theorem stocking_empty : (∅ : Updates).Stocking := fun s h =>
  h.congr fun _ => Overlay.get?_of_empty s _

/-- Writing updates that keep stores stocked keeps the store stocked. -/
theorem Updates.Stocking.write {u : Updates} (h : u.Stocking) {s : Store} (hs : Stocked s) :
    Stocked (s.write u) := (h s hs).congr fun _ => Overlay.get?_of_write s u _

namespace SameStacks

variable {u u' u'' : Updates} {s : Store}

theorem refl (u : Updates) : SameStacks u u := fun _ _ => rfl

theorem trans (h : SameStacks u u') (h' : SameStacks u' u'') : SameStacks u u'' :=
  fun s k => (h' s k).trans (h s k)

theorem insert (u : Updates) {k v : Bytes} (hk : ∀ k', k ≠ Entry.stackMark :: k') :
    SameStacks u (u.insert k v) := fun s k' => by
  rw [Overlay.get?_of_insert, if_neg fun heq => hk k' heq.symm]

theorem delete (u : Updates) {k : Bytes} (hk : ∀ k', k ≠ Entry.stackMark :: k') :
    SameStacks u (u.delete k) := fun s k' => by
  rw [Overlay.get?_of_delete, if_neg fun heq => hk k' heq.symm]

theorem stocking (h : SameStacks u u') (hu : u.Stocking) : u'.Stocking := fun s hs =>
  (hu s hs).congr (h s)

theorem rebuild (h : SameStacks u u') (s : Store) :
    VersionTree.rebuild (Overlay.mk s u') = VersionTree.rebuild (Overlay.mk s u) :=
  VersionTree.rebuild_congr (h s)

end SameStacks

/-- A well-formed stack that is written under its name keeps stores stocked. -/
theorem Updates.Stocking.putStack {u : Updates} (h : u.Stocking) {stack : Stack}
    (hfits : Stored.fits stack = true) (hwell : stack.WellFormed) :
    (u.insert (Entry.stack stack.name).key (Stored.encode stack)).Stocking := by
  intro s hs k v hv
  rw [Overlay.get?_of_insert] at hv
  split at hv
  next heq =>
    cases hv
    exact ⟨stack, (List.cons.inj heq).2, rfl, hfits, hwell⟩
  next => exact h s hs k v hv

/-- Rebuilding after updates are written is rebuilding from the overlay. -/
theorem rebuild_write (s : Store) (u : Updates) :
    VersionTree.rebuild (s.write u) = VersionTree.rebuild (Overlay.mk s u) :=
  VersionTree.rebuild_congr fun _ => Overlay.get?_of_write s u _

theorem rebuild_opened (s : Store) :
    VersionTree.rebuild (Overlay.mk s ∅) = VersionTree.rebuild s :=
  VersionTree.rebuild_congr fun _ => Overlay.get?_of_empty s _

end Chainlets
