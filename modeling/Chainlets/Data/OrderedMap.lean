/-!
# Ordered maps and sets

A finite map is the list of its entries in strictly ascending key order. The order is part of the
type, so a map has exactly one representation: two maps that answer every lookup alike are equal.
Everything the module keeps — the store, the buffered writes, the version tree — is such a map, so
"the same state" is plain equality.

## Main definitions

* `OrderedMap`, with `get?`, `insert`, `erase`, `alter` and `last?`.
* `OrderedSet`, a map to `Unit`, whose elements are its keys, with `add`.

## Main results

* `OrderedMap.get?_insert`, `OrderedMap.get?_erase`, `OrderedMap.get?_alter` — a lookup after a
  change is the lookup before it, except at the key that changed.
* `OrderedMap.ext_get?` — a map is determined by its lookups.
-/

namespace Chainlets

universe u v

/-- A finite map, as its entries in strictly ascending key order. -/
structure OrderedMap (α : Type u) (β : Type v) [Ord α] where
  /-- The entries, in ascending key order. -/
  toList : List (α × β)
  /-- Keys ascend strictly, so no key occurs twice. -/
  ascending : toList.Pairwise fun p q => compare p.1 q.1 = .lt

namespace OrderedMap

variable {α : Type u} {β : Type v} [Ord α]

/-- Maps with the same entries are the same map. -/
@[ext]
theorem ext {m n : OrderedMap α β} (h : m.toList = n.toList) : m = n := by
  cases m; cases n; cases h; rfl

instance [DecidableEq α] [DecidableEq β] : DecidableEq (OrderedMap α β) := fun m n =>
  decidable_of_iff (m.toList = n.toList) ⟨ext, congrArg toList⟩

/-- The map without entries. -/
def empty : OrderedMap α β := ⟨[], .nil⟩

instance : EmptyCollection (OrderedMap α β) := ⟨empty⟩

instance : Inhabited (OrderedMap α β) := ⟨∅⟩

/-- Whether the map has no entries. -/
def isEmpty (m : OrderedMap α β) : Bool := m.toList.isEmpty

/-- The keys, in ascending order. -/
def keys (m : OrderedMap α β) : List α := m.toList.map (·.1)

/-- The entry with the greatest key. -/
def last? (m : OrderedMap α β) : Option (α × β) := m.toList.getLast?

/-! ### Lookup -/

/-- The value that a list of entries holds for a key: that of the first entry with it. -/
def find (k : α) : List (α × β) → Option β
  | [] => none
  | (k', v) :: rest => if compare k k' = .eq then some v else find k rest

/-- The value stored for a key. -/
def get? (m : OrderedMap α β) (k : α) : Option β := find k m.toList

/-- Whether a value is stored for a key. -/
def contains (m : OrderedMap α β) (k : α) : Bool := (m.get? k).isSome

/-! ### Changes -/

/-- Put an entry at its place in an ascending list, in place of one with the same key. -/
def place (k : α) (v : β) : List (α × β) → List (α × β)
  | [] => [(k, v)]
  | (k', v') :: rest =>
    match compare k k' with
    | .lt => (k, v) :: (k', v') :: rest
    | .eq => (k, v) :: rest
    | .gt => (k', v') :: place k v rest

/-- A member of the new list is the new entry or an old one. -/
theorem eq_or_mem_of_mem_place {k : α} {v : β} {p : α × β} :
    ∀ {l : List (α × β)}, p ∈ place k v l → p = (k, v) ∨ p ∈ l
  | [], h => by simpa [place] using h
  | (k', v') :: rest, h => by
    rw [place] at h
    split at h
    · simpa using h
    · rcases List.mem_cons.1 h with h | h
      · exact .inl h
      · exact .inr (List.mem_cons_of_mem _ h)
    · rcases List.mem_cons.1 h with h | h
      · exact .inr (h ▸ List.mem_cons_self)
      · exact (eq_or_mem_of_mem_place h).imp_right (List.mem_cons_of_mem _)

/-- Placing an entry keeps the keys ascending. -/
theorem ascending_place [Std.TransOrd α] [Std.LawfulEqOrd α] (k : α) (v : β) :
    ∀ {l : List (α × β)}, l.Pairwise (fun p q => compare p.1 q.1 = .lt) →
      (place k v l).Pairwise fun p q => compare p.1 q.1 = .lt
  | [], _ => by simp [place]
  | (k', v') :: rest, h => by
    rw [place]
    split
    next hlt =>
      refine h.cons fun p hp => ?_
      rcases List.mem_cons.1 hp with rfl | hp
      · exact hlt
      · exact Std.TransCmp.lt_trans hlt (List.rel_of_pairwise_cons h hp)
    next heq =>
      cases Std.LawfulEqCmp.compare_eq_iff_eq.1 heq
      exact h.of_cons.cons fun p hp => List.rel_of_pairwise_cons h hp
    next hgt =>
      refine (ascending_place k v h.of_cons).cons fun p hp => ?_
      rcases eq_or_mem_of_mem_place hp with rfl | hp
      · exact Std.OrientedCmp.lt_of_gt hgt
      · exact List.rel_of_pairwise_cons h hp

/-- The map with one value replaced or added. -/
def insert [Std.TransOrd α] [Std.LawfulEqOrd α] (m : OrderedMap α β) (k : α) (v : β) :
    OrderedMap α β :=
  ⟨place k v m.toList, ascending_place k v m.ascending⟩

/-- The map without one key. -/
def erase (m : OrderedMap α β) (k : α) : OrderedMap α β :=
  ⟨m.toList.filter fun p => compare k p.1 ≠ .eq, m.ascending.filter _⟩

/-- The map in which one lookup is passed through a function. -/
def alter [Std.TransOrd α] [Std.LawfulEqOrd α] (m : OrderedMap α β) (k : α)
    (f : Option β → Option β) : OrderedMap α β :=
  match f (m.get? k) with
  | none => m.erase k
  | some v => m.insert k v

/-- The map of a list of entries, in which a later entry replaces an earlier one. -/
def ofList [Std.TransOrd α] [Std.LawfulEqOrd α] (l : List (α × β)) : OrderedMap α β :=
  l.foldl (fun m p => m.insert p.1 p.2) ∅

/-! ### Lookups after changes -/

@[simp]
theorem toList_empty : (∅ : OrderedMap α β).toList = [] := rfl

@[simp]
theorem get?_empty (k : α) : (∅ : OrderedMap α β).get? k = none := rfl

variable [Std.TransOrd α] [Std.LawfulEqOrd α]

omit [Std.TransOrd α] in
theorem find_place (k k' : α) (v : β) :
    ∀ l : List (α × β),
      find k' (place k v l) = if compare k' k = .eq then some v else find k' l
  | [] => rfl
  | (k₁, v₁) :: rest => by
    rw [place]
    split
    next => rw [find]
    next heq =>
      cases Std.LawfulEqCmp.compare_eq_iff_eq.1 heq
      rw [find, find]
      split <;> rfl
    next hgt =>
      rw [find, find, find_place k k' v rest]
      by_cases h : compare k' k = .eq
      · cases Std.LawfulEqCmp.compare_eq_iff_eq.1 h
        simp [hgt]
      · simp [h]

@[simp]
theorem get?_insert_self (m : OrderedMap α β) (k : α) (v : β) :
    (m.insert k v).get? k = some v := by
  simp [get?, insert, find_place]

theorem get?_insert_of_ne (m : OrderedMap α β) {k k' : α} (v : β) (h : k' ≠ k) :
    (m.insert k v).get? k' = m.get? k' := by
  simp [get?, insert, find_place, Std.LawfulEqCmp.compare_eq_iff_eq, h]

/-- A lookup after an insertion. -/
theorem get?_insert [DecidableEq α] (m : OrderedMap α β) (k k' : α) (v : β) :
    (m.insert k v).get? k' = if k' = k then some v else m.get? k' := by
  split
  next h => rw [h, get?_insert_self]
  next h => exact get?_insert_of_ne m v h

omit [Std.TransOrd α] in
theorem find_filter_self (k : α) :
    ∀ l : List (α × β), find k (l.filter fun p => compare k p.1 ≠ .eq) = none
  | [] => rfl
  | (k₁, v₁) :: rest => by
    rw [List.filter_cons]
    split
    next h =>
      rw [find, if_neg (by simpa using h), find_filter_self k rest]
    next => exact find_filter_self k rest

omit [Std.TransOrd α] in
theorem find_filter_of_ne {k k' : α} (hne : k' ≠ k) :
    ∀ l : List (α × β), find k' (l.filter fun p => compare k p.1 ≠ .eq) = find k' l
  | [] => rfl
  | (k₁, v₁) :: rest => by
    rw [List.filter_cons]
    split
    next => rw [find, find, find_filter_of_ne hne rest]
    next h =>
      have heq : k = k₁ := by simpa [Std.LawfulEqCmp.compare_eq_iff_eq] using h
      rw [find, if_neg (by simpa [Std.LawfulEqCmp.compare_eq_iff_eq, ← heq] using hne),
        find_filter_of_ne hne rest]

omit [Std.TransOrd α] in
@[simp]
theorem get?_erase_self (m : OrderedMap α β) (k : α) : (m.erase k).get? k = none :=
  find_filter_self k _

omit [Std.TransOrd α] in
theorem get?_erase_of_ne (m : OrderedMap α β) {k k' : α} (h : k' ≠ k) :
    (m.erase k).get? k' = m.get? k' :=
  find_filter_of_ne h _

omit [Std.TransOrd α] in
/-- A lookup after a removal. -/
theorem get?_erase [DecidableEq α] (m : OrderedMap α β) (k k' : α) :
    (m.erase k).get? k' = if k' = k then none else m.get? k' := by
  split
  next h => rw [h, get?_erase_self]
  next h => exact get?_erase_of_ne m h

/-- A lookup after an alteration. -/
theorem get?_alter [DecidableEq α] (m : OrderedMap α β) (k k' : α) (f : Option β → Option β) :
    (m.alter k f).get? k' = if k' = k then f (m.get? k) else m.get? k' := by
  rw [alter]
  split
  next h => rw [get?_erase, h]
  next v h => rw [get?_insert, h]

/-! ### Extensionality -/

omit [Std.TransOrd α] in
/-- An ascending list holds the value of each of its entries. -/
theorem find_eq_some_of_mem {p : α × β} :
    ∀ {l : List (α × β)}, l.Pairwise (fun p q => compare p.1 q.1 = .lt) → p ∈ l →
      find p.1 l = some p.2
  | (k, v) :: rest, h, hp => by
    rcases List.mem_cons.1 hp with rfl | hp
    · simp [find]
    · have hlt := List.rel_of_pairwise_cons h hp
      have hne : p.1 ≠ k := by
        rintro rfl
        simp at hlt
      rw [find, if_neg (by simpa [Std.LawfulEqCmp.compare_eq_iff_eq] using hne)]
      exact find_eq_some_of_mem h.of_cons hp

omit [Std.TransOrd α] in
/-- A value that is found belongs to an entry. -/
theorem mem_of_find_eq_some {k : α} {v : β} :
    ∀ {l : List (α × β)}, find k l = some v → (k, v) ∈ l
  | (k', v') :: rest, h => by
    rw [find] at h
    split at h
    next heq =>
      cases Std.LawfulEqCmp.compare_eq_iff_eq.1 heq
      simp_all
    next => exact List.mem_cons_of_mem _ (mem_of_find_eq_some h)

omit [Std.TransOrd α] in
/-- A key has a value exactly when the two form an entry. -/
theorem get?_eq_some_iff {m : OrderedMap α β} {k : α} {v : β} :
    m.get? k = some v ↔ (k, v) ∈ m.toList :=
  ⟨mem_of_find_eq_some, fun h => find_eq_some_of_mem m.ascending h⟩

theorem toList_eq_of_mem_iff :
    ∀ {l₁ l₂ : List (α × β)}, l₁.Pairwise (fun p q => compare p.1 q.1 = .lt) →
      l₂.Pairwise (fun p q => compare p.1 q.1 = .lt) → (∀ p, p ∈ l₁ ↔ p ∈ l₂) → l₁ = l₂
  | [], [], _, _, _ => rfl
  | [], q :: _, _, _, h => absurd ((h q).2 List.mem_cons_self) (by simp)
  | p :: _, [], _, _, h => absurd ((h p).1 List.mem_cons_self) (by simp)
  | p :: r₁, q :: r₂, h₁, h₂, h => by
    have hpq : p = q := by
      rcases List.mem_cons.1 ((h p).1 List.mem_cons_self) with hp | hp
      · exact hp
      · rcases List.mem_cons.1 ((h q).2 List.mem_cons_self) with hq | hq
        · exact hq.symm
        · have hlt := Std.TransCmp.lt_trans (List.rel_of_pairwise_cons h₁ hq)
            (List.rel_of_pairwise_cons h₂ hp)
          simp at hlt
    subst hpq
    congr 1
    refine toList_eq_of_mem_iff h₁.of_cons h₂.of_cons fun x => ⟨fun hx => ?_, fun hx => ?_⟩
    · rcases List.mem_cons.1 ((h x).1 (List.mem_cons_of_mem _ hx)) with rfl | hx'
      · have := List.rel_of_pairwise_cons h₁ hx
        simp at this
      · exact hx'
    · rcases List.mem_cons.1 ((h x).2 (List.mem_cons_of_mem _ hx)) with rfl | hx'
      · have := List.rel_of_pairwise_cons h₂ hx
        simp at this
      · exact hx'

/-- **A map is determined by its lookups.** The ascending order leaves no other freedom. -/
theorem ext_get? {m n : OrderedMap α β} (h : ∀ k, m.get? k = n.get? k) : m = n :=
  ext <| toList_eq_of_mem_iff m.ascending n.ascending fun p => by
    rw [← get?_eq_some_iff (k := p.1) (v := p.2), h, get?_eq_some_iff]

end OrderedMap

/-! ### Sets -/

/-- A finite set, as a map to the one-element type. -/
abbrev OrderedSet (α : Type u) [Ord α] := OrderedMap α Unit

namespace OrderedSet

variable {α : Type u} [Ord α] [Std.TransOrd α] [Std.LawfulEqOrd α]

/-- The set with one element added. -/
def add (s : OrderedSet α) (a : α) : OrderedSet α := OrderedMap.insert s a ()

end OrderedSet

end Chainlets
