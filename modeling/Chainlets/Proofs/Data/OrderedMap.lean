import Chainlets.Data.OrderedMap

/-!
# Lookups after many changes

What a lookup in an ordered map comes to after a whole list of insertions or removals, and how
lookups, keys and entries go together.

## Main definitions

* `OrderedMap.fileBy` — the map of values that have their keys on them.

## Main results

* `OrderedMap.get?_foldl_insert`, `OrderedMap.get?_foldl_erase` — a lookup after many changes.
* `OrderedMap.find_filter` — a lookup in a part of the entries that is chosen by key.
* `OrderedMap.length_insert` — the number of entries after an insertion.
* `OrderedMap.toList_insert` — an insertion puts an entry between those before and those after it.
* `OrderedMap.eq_or_lt_of_last?` — no key is above that of the greatest entry.
* `OrderedMap.get?_fileBy_eq_some_iff` — a lookup among values with distinct keys of their own.
* `OrderedMap.fileBy_values`, `OrderedMap.values_fileBy_perm` — from a map to its values and back.
* `OrderedMap.toList_map_of_get?` — two maps whose lookups go together have entries that do.
-/

namespace Chainlets.OrderedMap

universe u v w

variable {α : Type u} {β : Type v} {γ : Type w} [Ord α] [Std.TransOrd α] [Std.LawfulEqOrd α]

/-! ### Lists of entries -/

omit [Std.TransOrd α] in
theorem find_cons_self (k : α) (v : β) (l : List (α × β)) : find k ((k, v) :: l) = some v := by
  rw [find, if_pos (Std.LawfulEqCmp.compare_eq_iff_eq.2 rfl)]

omit [Std.TransOrd α] in
theorem find_cons_of_ne {k k' : α} (h : k ≠ k') (v : β) (l : List (α × β)) :
    find k ((k', v) :: l) = find k l := by
  rw [find, if_neg fun heq => h (Std.LawfulEqCmp.compare_eq_iff_eq.1 heq)]

omit [Std.TransOrd α] in
/-- A key that is none of the keys of a list is not found in it. -/
theorem find_eq_none_of_ne {k : α} {l : List (α × β)} (h : ∀ p ∈ l, k ≠ p.1) :
    find k l = none := by
  induction l with
  | nil => rfl
  | cons p l ih =>
    rw [find_cons_of_ne (h p List.mem_cons_self), ih fun q hq => h q (List.mem_cons_of_mem _ hq)]

omit [Std.TransOrd α] in
/-- A lookup among values that are filed under distinct keys of their own. -/
theorem find_map_eq_some_iff {f : β → α} {l : List β} (h : l.Pairwise fun a b => f a ≠ f b)
    {k : α} {b : β} : find k (l.map fun b => (f b, b)) = some b ↔ b ∈ l ∧ f b = k := by
  induction l with
  | nil => simp [find]
  | cons c l ih =>
    rw [List.map_cons, List.mem_cons]
    by_cases hk : k = f c
    · subst hk
      rw [find_cons_self]
      constructor
      · rintro ⟨⟩
        exact ⟨.inl rfl, rfl⟩
      · rintro ⟨rfl | hb, heq⟩
        · rfl
        · exact absurd heq.symm (List.rel_of_pairwise_cons h hb)
    · rw [find_cons_of_ne hk, ih h.of_cons]
      constructor
      · rintro ⟨hb, heq⟩
        exact ⟨.inr hb, heq⟩
      · rintro ⟨rfl | hb, heq⟩
        · exact absurd heq.symm hk
        · exact ⟨hb, heq⟩

omit [Std.TransOrd α] in
/-- Keys that ascend are distinct. -/
theorem distinct_of_ascending {l : List (α × β)}
    (h : l.Pairwise fun p q => compare p.1 q.1 = .lt) : l.Pairwise fun p q => p.1 ≠ q.1 :=
  h.imp fun {p q} hlt heq => by
    rw [heq] at hlt
    simp at hlt

omit [Std.TransOrd α] in
/-- A lookup among the entries whose keys pass a test. -/
theorem find_filter (p : α → Bool) (k : α) :
    ∀ l : List (α × β), find k (l.filter fun e => p e.1) = if p k then find k l else none
  | [] => by simp [find]
  | (k', v) :: l => by
    rw [List.filter_cons]
    by_cases hk : k = k'
    · subst hk
      by_cases hp : p k = true
      · simp only [hp, if_true]
        rw [find_cons_self, find_cons_self]
      · simp only [hp]
        rw [if_neg (by simp), find_filter p k l, if_neg hp]
        simp
    · rw [find_cons_of_ne hk]
      split
      next => rw [find_cons_of_ne hk, find_filter p k l]
      next => exact find_filter p k l

/-! ### One change -/

/-- What is found after an insertion is what was inserted or what was found before. -/
theorem get?_insert_cases {m : OrderedMap α β} {k k' : α} {v v' : β}
    (h : (m.insert k v).get? k' = some v') : (k' = k ∧ v' = v) ∨ m.get? k' = some v' := by
  by_cases hk : k' = k
  · subst hk
    rw [get?_insert_self] at h
    exact .inl ⟨rfl, (Option.some.inj h).symm⟩
  · rw [get?_insert_of_ne m v hk] at h
    exact .inr h

omit [Std.TransOrd α] in
/-- What is found after a deletion was found before. -/
theorem get?_of_get?_erase {m : OrderedMap α β} {k k' : α} {v : β}
    (h : (m.erase k).get? k' = some v) : m.get? k' = some v := by
  by_cases hk : k' = k
  · subst hk
    rw [get?_erase_self] at h
    cases h
  · rwa [get?_erase_of_ne m hk] at h

/-! ### Many changes -/

/-- A lookup after entries with distinct keys are put into a map. -/
theorem get?_foldl_insert {l : List (α × β)} (h : l.Pairwise fun p q => p.1 ≠ q.1)
    (m : OrderedMap α β) (k : α) :
    (l.foldl (fun m p => m.insert p.1 p.2) m).get? k = (find k l).or (m.get? k) := by
  induction l generalizing m with
  | nil => rfl
  | cons p l ih =>
    rw [List.foldl_cons, ih h.of_cons]
    by_cases hk : k = p.1
    · subst hk
      have hnone := find_eq_none_of_ne (l := l) fun q hq => List.rel_of_pairwise_cons h hq
      rw [hnone, find_cons_self, get?_insert_self]
      rfl
    · rw [get?_insert_of_ne m p.2 hk, find_cons_of_ne hk]

/-- A lookup in the map of a list of entries whose keys ascend. -/
theorem get?_ofList {l : List (α × β)} (h : l.Pairwise fun p q => compare p.1 q.1 = .lt) (k : α) :
    (ofList l).get? k = find k l := by
  rw [ofList, get?_foldl_insert (distinct_of_ascending h), get?_empty, Option.or_none]

omit [Std.TransOrd α] in
/-- A lookup after keys are removed from a map. -/
theorem get?_foldl_erase [DecidableEq α] (ks : List α) (m : OrderedMap α β) (k : α) :
    (ks.foldl erase m).get? k = if k ∈ ks then none else m.get? k := by
  induction ks generalizing m with
  | nil => simp
  | cons k' ks ih =>
    rw [List.foldl_cons, ih, get?_erase]
    by_cases hk : k = k'
    · simp [hk]
    · simp [hk]

/-! ### Keys and entries -/

omit [Std.TransOrd α] in
/-- A key of a map is one for which a value is stored. -/
theorem mem_keys_iff {m : OrderedMap α β} {k : α} : k ∈ m.keys ↔ m.contains k = true := by
  rw [contains, Option.isSome_iff_exists, keys, List.mem_map]
  constructor
  · rintro ⟨⟨k', v⟩, hmem, rfl⟩
    exact ⟨v, get?_eq_some_iff.2 hmem⟩
  · rintro ⟨v, hv⟩
    exact ⟨(k, v), get?_eq_some_iff.1 hv, rfl⟩

/-! ### The number of entries -/

/-- Placing an entry makes an ascending list longer by one, unless its key is there. -/
theorem length_place (k : α) (v : β) {l : List (α × β)}
    (h : l.Pairwise fun p q => compare p.1 q.1 = .lt) :
    (place k v l).length = if (find k l).isSome then l.length else l.length + 1 := by
  induction l with
  | nil => rfl
  | cons p l ih =>
    obtain ⟨k', v'⟩ := p
    rw [place]
    split
    next hlt =>
      have hnone : find k ((k', v') :: l) = none := by
        refine find_eq_none_of_ne fun q hq heq => ?_
        rcases List.mem_cons.1 hq with rfl | hq
        · rw [heq] at hlt
          simp at hlt
        · have htrans := Std.TransCmp.lt_trans hlt (List.rel_of_pairwise_cons h hq)
          rw [heq] at htrans
          simp at htrans
      simp [hnone]
    next heq =>
      cases Std.LawfulEqCmp.compare_eq_iff_eq.1 heq
      simp [find_cons_self]
    next hgt =>
      have hne : k ≠ k' := by
        rintro rfl
        simp at hgt
      rw [find_cons_of_ne hne, List.length_cons, ih h.of_cons, List.length_cons]
      split <;> rfl

/-- An insertion adds an entry, unless its key is there. -/
theorem length_insert (m : OrderedMap α β) (k : α) (v : β) :
    (m.insert k v).toList.length =
      if m.contains k then m.toList.length else m.toList.length + 1 :=
  length_place k v m.ascending

/-- A value that takes the place of another one adds no entry. -/
theorem length_insert_of_get? {m : OrderedMap α β} {k : α} {v : β} (h : m.get? k = some v)
    (v' : β) : (m.insert k v').toList.length = m.toList.length := by
  rw [length_insert, contains, h]
  rfl

/-- Entries with distinct keys that are not there yet are all added. -/
theorem length_foldl_insert {l : List (α × β)} (h : l.Pairwise fun p q => p.1 ≠ q.1)
    (m : OrderedMap α β) (hm : ∀ p ∈ l, m.get? p.1 = none) :
    (l.foldl (fun m p => m.insert p.1 p.2) m).toList.length = m.toList.length + l.length := by
  induction l generalizing m with
  | nil => rfl
  | cons p l ih =>
    have hfree : m.contains p.1 = false := by rw [contains, hm p List.mem_cons_self]; rfl
    rw [List.foldl_cons, ih h.of_cons, length_insert, hfree, List.length_cons]
    · simp only [Bool.false_eq_true, if_false]
      omega
    · intro q hq
      rw [get?_insert_of_ne m p.2 (List.rel_of_pairwise_cons h hq).symm]
      exact hm q (List.mem_cons_of_mem _ hq)

/-- Of two insertions at one key the second one counts. -/
theorem insert_insert (m : OrderedMap α β) (k : α) (v v' : β) :
    (m.insert k v).insert k v' = m.insert k v' := by
  refine ext_get? fun k' => ?_
  by_cases hk : k' = k
  · subst hk
    rw [get?_insert_self, get?_insert_self]
  · rw [get?_insert_of_ne _ _ hk, get?_insert_of_ne _ _ hk, get?_insert_of_ne _ _ hk]

/-- A value that is stored again in its place changes nothing. -/
theorem insert_of_get? {m : OrderedMap α β} {k : α} {v : β} (h : m.get? k = some v) :
    m.insert k v = m := by
  refine ext_get? fun k' => ?_
  by_cases hk : k' = k
  · rw [hk, get?_insert_self, h]
  · exact get?_insert_of_ne m v hk

/-! ### The place of an entry -/

omit [Std.LawfulEqOrd α] in
/-- Of entries with higher keys than a given one, none has a lower key and all have higher ones. -/
theorem filter_of_higher {k : α} {l : List (α × β)} (h : ∀ e ∈ l, compare k e.1 = .lt) :
    l.filter (fun e => compare e.1 k = .lt) = [] ∧
      l.filter (fun e => compare k e.1 = .lt) = l := by
  constructor
  · refine List.filter_eq_nil_iff.2 fun e he => ?_
    rw [Std.OrientedCmp.gt_of_lt (h e he)]
    decide
  · exact List.filter_eq_self.2 fun e he => decide_eq_true (h e he)

/-- An entry is placed after the entries with lower keys and before those with higher keys. -/
theorem place_eq {l : List (α × β)} (h : l.Pairwise fun p q => compare p.1 q.1 = .lt) (k : α)
    (v : β) :
    place k v l = l.filter (fun e => compare e.1 k = .lt) ++
      (k, v) :: l.filter (fun e => compare k e.1 = .lt) := by
  induction l with
  | nil => rfl
  | cons e l ih =>
    obtain ⟨k', v'⟩ := e
    have habove : ∀ e ∈ l, compare k' e.1 = .lt := fun e he => List.rel_of_pairwise_cons h he
    rw [place]
    split
    next hlt =>
      have hall : ∀ e ∈ (k', v') :: l, compare k e.1 = .lt := fun e he => by
        rcases List.mem_cons.1 he with rfl | he
        · exact hlt
        · exact Std.TransCmp.lt_trans hlt (habove e he)
      rw [(filter_of_higher hall).1, (filter_of_higher hall).2, List.nil_append]
    next heq =>
      cases Std.LawfulEqCmp.compare_eq_iff_eq.1 heq
      simp [filter_of_higher habove]
    next hgt =>
      have hlt : compare k' k = .lt := Std.OrientedCmp.lt_of_gt hgt
      rw [ih h.of_cons]
      simp [hlt, hgt]

/-- **An insertion puts an entry between those before and those after it.** What was stored for its
key is not among them. -/
theorem toList_insert (m : OrderedMap α β) (k : α) (v : β) :
    (m.insert k v).toList = m.toList.filter (fun e => compare e.1 k = .lt) ++
      (k, v) :: m.toList.filter (fun e => compare k e.1 = .lt) := place_eq m.ascending k v

omit [Std.TransOrd α] in
/-- A removal leaves the entries with other keys. -/
theorem toList_erase [DecidableEq α] (m : OrderedMap α β) (k : α) :
    (m.erase k).toList = m.toList.filter fun e => e.1 ≠ k := by
  refine List.filter_congr fun e _ => ?_
  rw [decide_eq_decide, ne_eq, Std.LawfulEqCmp.compare_eq_iff_eq]
  exact ne_comm

/-! ### The greatest entry -/

omit [Std.TransOrd α] [Std.LawfulEqOrd α] in
theorem exists_last? {m : OrderedMap α β} (h : m ≠ ∅) : ∃ k v, m.last? = some (k, v) := by
  cases hlast : m.last? with
  | none => exact absurd (ext (List.getLast?_eq_none_iff.1 hlast)) h
  | some e => exact ⟨e.1, e.2, rfl⟩

omit [Std.TransOrd α] in
/-- The greatest entry of a map is one of its entries. -/
theorem get?_of_last? {m : OrderedMap α β} {k : α} {v : β} (h : m.last? = some (k, v)) :
    m.get? k = some v :=
  get?_eq_some_iff.2 (List.mem_of_getLast? h)

omit [Std.TransOrd α] in
/-- No key is above that of the greatest entry. -/
theorem eq_or_lt_of_last? {m : OrderedMap α β} {k k' : α} {v v' : β} (h : m.last? = some (k, v))
    (h' : m.get? k' = some v') : k' = k ∨ compare k' k = .lt := by
  obtain ⟨front, hfront⟩ := List.getLast?_eq_some_iff.1 h
  have hmem : (k', v') ∈ front ++ [(k, v)] := hfront ▸ get?_eq_some_iff.1 h'
  have hascending := hfront ▸ m.ascending
  rcases List.mem_append.1 hmem with hmem | hmem
  · exact .inr ((List.pairwise_append.1 hascending).2.2 _ hmem _ List.mem_cons_self)
  · cases List.mem_singleton.1 hmem
    exact .inl rfl

/-! ### Maps of values with keys of their own -/

/-- The map of values that have their keys on them. -/
def fileBy (f : β → α) (l : List β) : OrderedMap α β := l.foldl (fun m b => m.insert (f b) b) ∅

theorem fileBy_eq_ofList (f : β → α) (l : List β) :
    fileBy f l = ofList (l.map fun b => (f b, b)) := by
  rw [fileBy, ofList, List.foldl_map]

variable {f : β → α} {l : List β}

theorem get?_fileBy_eq_some_iff (h : l.Pairwise fun a b => f a ≠ f b) {k : α} {b : β} :
    (fileBy f l).get? k = some b ↔ b ∈ l ∧ f b = k := by
  rw [fileBy_eq_ofList, ofList, get?_foldl_insert (List.pairwise_map.2 h), get?_empty,
    Option.or_none, find_map_eq_some_iff h]

theorem length_fileBy (h : l.Pairwise fun a b => f a ≠ f b) :
    (fileBy f l).toList.length = l.length := by
  rw [fileBy_eq_ofList, ofList, length_foldl_insert (List.pairwise_map.2 h) ∅ fun _ _ => rfl,
    List.length_map, toList_empty, List.length_nil, Nat.zero_add]

omit [Std.TransOrd α] in
/-- Values that are stored under keys of their own can be told apart by these keys. -/
theorem distinct_values {m : OrderedMap α β} (h : ∀ {k b}, m.get? k = some b → f b = k) :
    (m.toList.map (·.2)).Pairwise fun a b => f a ≠ f b := by
  refine List.pairwise_map.2 ((distinct_of_ascending m.ascending).imp_of_mem ?_)
  intro p q hp hq hne
  rwa [h (get?_eq_some_iff.2 hp), h (get?_eq_some_iff.2 hq)]

omit [Std.TransOrd α] in
theorem mem_values_iff {m : OrderedMap α β} {b : β} :
    b ∈ m.toList.map (·.2) ↔ ∃ k, m.get? k = some b := by
  rw [List.mem_map]
  constructor
  · rintro ⟨⟨k, b⟩, hmem, rfl⟩
    exact ⟨k, get?_eq_some_iff.2 hmem⟩
  · rintro ⟨k, hk⟩
    exact ⟨(k, b), get?_eq_some_iff.1 hk, rfl⟩

/-- **A map of values that are stored under keys of their own is the map of its values.** -/
theorem fileBy_values {m : OrderedMap α β} (h : ∀ {k b}, m.get? k = some b → f b = k) :
    fileBy f (m.toList.map (·.2)) = m := by
  refine ext_get? fun k => Option.ext fun b => ?_
  rw [get?_fileBy_eq_some_iff (distinct_values h), mem_values_iff]
  constructor
  · rintro ⟨⟨k', hk'⟩, rfl⟩
    rwa [h hk']
  · exact fun hk => ⟨⟨k, hk⟩, h hk⟩

/-- The values of the map of a list are those of the list. -/
theorem values_fileBy_perm (h : l.Pairwise fun a b => f a ≠ f b) :
    ((fileBy f l).toList.map (·.2)).Perm l := by
  have hfiled : ∀ {k b}, (fileBy f l).get? k = some b → f b = k := fun {_ _} hget =>
    ((get?_fileBy_eq_some_iff h).1 hget).2
  have hnodup {l : List β} (h : l.Pairwise fun a b => f a ≠ f b) : l.Nodup :=
    h.imp fun {a b} hne (heq : a = b) => hne (congrArg f heq)
  refine (List.perm_ext_iff_of_nodup (hnodup (distinct_values hfiled)) (hnodup h)).2 fun b => ?_
  rw [mem_values_iff]
  constructor
  · rintro ⟨k, hk⟩
    exact ((get?_fileBy_eq_some_iff h).1 hk).1
  · exact fun hb => ⟨f b, (get?_fileBy_eq_some_iff h).2 ⟨hb, rfl⟩⟩

/-! ### Maps that go together -/

omit [Std.TransOrd α] in
/-- **Two maps whose lookups go together have entries that do.** The keys are renamed by a function
that keeps their order, and the values by any function. -/
theorem toList_map_of_get? {α' : Type u} [Ord α'] [Std.TransOrd α'] [Std.LawfulEqOrd α']
    {l : List (α' × γ)} (hl : l.Pairwise fun p q => compare p.1 q.1 = .lt)
    (m : OrderedMap α β) (f : α → α') (g : β → γ)
    (hf : ∀ {a b}, compare a b = .lt → compare (f a) (f b) = .lt)
    (h : ∀ p, p ∈ l ↔ ∃ k v, m.get? k = some v ∧ p = (f k, g v)) :
    l = m.toList.map fun e => (f e.1, g e.2) := by
  refine toList_eq_of_mem_iff hl (List.pairwise_map.2 (m.ascending.imp hf)) fun p => ?_
  rw [h, List.mem_map]
  constructor
  · rintro ⟨k, v, hv, rfl⟩
    exact ⟨(k, v), get?_eq_some_iff.1 hv, rfl⟩
  · rintro ⟨⟨k, v⟩, hmem, rfl⟩
    exact ⟨k, v, get?_eq_some_iff.2 hmem, rfl⟩

end Chainlets.OrderedMap
