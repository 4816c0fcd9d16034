import Chainlets.Proofs.Registry.AutoUpgrade
import Chainlets.Query
import Mathlib.Data.List.TakeWhile
import Mathlib.Data.String.Basic

/-!
# Reading a list page by page

A page names the key at which the next page begins, so a list is read by asking for the first page
and then for the page at each key that is named, until none is named. The pages that are read are
determined by the first request, there are finitely many of them, and together they are the list:
nothing is left out where one page ends and the next one begins, and nothing is read twice.

What makes this work is that the list is sorted by the key that pages are cut by. A key that is
named is that of an item, and the items before it are exactly those that have been read.

## Main definitions

* `Page.size` — the number of items of a page.
* `Page.Traversal` — the pages that are read one after the other.
* `Page.Visits` — reading in pages visits a list.

## Main results

* `Page.exists_traversal` — from any start on, the pages are what is left of the list.
* `Page.head?_cut_iff` — a page begins at the least key that is not before its start.
* `Query.pages_visit` — **the pages of chainlets and of stacks visit everything once.**
-/

namespace Chainlets

namespace Page

variable {α ε : Type} {read : PageRequest → Except ε (Page α)} {limit : Nat}

/-- The number of items of a page, for the number that is asked for. -/
def size (limit : Nat) : Nat := if limit = 0 then usualLimit else limit

theorem size_pos (limit : Nat) : 0 < size limit := by
  rw [size]
  split
  next => decide
  next h => exact Nat.pos_of_ne_zero h

/-- The pages that are read from a start on, each at the key that the page before it names, up to
one that names no key. -/
inductive Traversal (read : PageRequest → Except ε (Page α)) (limit : Nat) :
    Option String → List (Page α) → Prop
  /-- The page names no key. -/
  | last {start? : Option String} {page : Page α} (reads : read ⟨start?, limit⟩ = .ok page)
      (ends : page.next? = none) : Traversal read limit start? [page]
  /-- The page names the key of the next page. -/
  | next {start? : Option String} {page : Page α} {key : String} {pages : List (Page α)}
      (reads : read ⟨start?, limit⟩ = .ok page) (names : page.next? = some key)
      (rest : Traversal read limit (some key) pages) : Traversal read limit start? (page :: pages)

/-- The start decides which pages are read. -/
theorem Traversal.unique {start? : Option String} {pages pages' : List (Page α)}
    (h : Traversal read limit start? pages) (h' : Traversal read limit start? pages') :
    pages' = pages := by
  induction h generalizing pages' with
  | last reads ends =>
    cases h' with
    | last reads' _ => rw [Except.ok.inj (reads'.symm.trans reads)]
    | next reads' names' _ =>
      cases Except.ok.inj (reads'.symm.trans reads)
      cases ends.symm.trans names'
  | next reads names _ ih =>
    cases h' with
    | last reads' ends' =>
      cases Except.ok.inj (reads'.symm.trans reads)
      cases ends'.symm.trans names
    | next reads' names' rest' =>
      cases Except.ok.inj (reads'.symm.trans reads)
      cases Option.some.inj (names'.symm.trans names)
      rw [ih rest']

/-- Reading in pages visits a list: it ascends, the pages that are read from the beginning are
determined and together are the list, all of them but the last are full, each of them tells the
length of the list, and none is empty unless the list is. From any key on, the first page begins at
the least key of the list that is not before it. -/
structure Visits (read : PageRequest → Except ε (Page α)) (key : α → String) (all : List α)
    (limit : Nat) : Prop where
  ascends : all.Pairwise fun a b => key a < key b
  traversal : ∃ pages, (∀ pages', Traversal read limit none pages' ↔ pages' = pages) ∧
    pages.flatMap (·.items) = all ∧
    (∀ page ∈ pages.dropLast, page.items.length = size limit) ∧
    ∀ page ∈ pages, page.items.length ≤ size limit ∧ page.total = all.length ∧
      (page.items = [] → all = [])
  begins : ∀ start, ∃ page, read ⟨some start, limit⟩ = .ok page ∧
    ∀ item, page.items.head? = some item ↔
      item ∈ all ∧ start ≤ key item ∧ ∀ other ∈ all, start ≤ key other → key item ≤ key other

variable {key : α → String} {all : List α}

/-- The items of a sorted list that come before one of them are those before it in the list. -/
theorem dropWhile_isBefore {front rest : List α} {item : α}
    (h : (front ++ item :: rest).Pairwise fun a b => key a < key b) :
    (front ++ item :: rest).dropWhile (fun other => isBefore (some (key item)) (key other)) =
      item :: rest := by
  have hbefore : ∀ other ∈ front, isBefore (some (key item)) (key other) = true :=
    fun other hother =>
      decide_eq_true ((List.pairwise_append.1 h).2.2 _ hother _ List.mem_cons_self)
  have hitem : ¬ isBefore (some (key item)) (key item) = true := by simp [isBefore]
  rw [List.dropWhile_append_of_pos hbefore]
  exact List.dropWhile_cons_of_neg hitem

/-- **From any start on, the pages are what is left of the list.** All of them but the last are
full, and none is empty unless nothing is left. -/
theorem exists_traversal (h : all.Pairwise fun a b => key a < key b)
    (hread : ∀ request, read request = .ok (cut key all request)) (limit : Nat)
    (start? : Option String) : ∃ pages, Traversal read limit start? pages ∧
      pages.flatMap (·.items) = all.dropWhile (fun item => isBefore start? (key item)) ∧
      (∀ page ∈ pages.dropLast, page.items.length = size limit) ∧
      ∀ page ∈ pages, page.items.length ≤ size limit ∧ page.total = all.length ∧
        (page.items = [] → all.dropWhile (fun item => isBefore start? (key item)) = []) := by
  -- what is left gets shorter with every page, since no page is of size zero
  generalize hleft : all.dropWhile (fun item => isBefore start? (key item)) = left
  induction hn : left.length using Nat.strongRecOn generalizing start? left with
  | ind n ih =>
    have hcut : cut key all ⟨start?, limit⟩ =
        ⟨left.take (size limit), (left.drop (size limit)).head?.map key, all.length⟩ := by
      rw [← hleft]
      rfl
    have hreads := (hread ⟨start?, limit⟩).trans (congrArg Except.ok hcut)
    have htake : (left.take (size limit)).length ≤ size limit := List.length_take_le ..
    cases hdrop : left.drop (size limit) with
    | nil =>
      have hall : left.take (size limit) = left :=
        List.take_of_length_le (List.drop_eq_nil_iff.1 hdrop)
      rw [hdrop] at hreads
      refine ⟨_, .last hreads rfl, ?_, nofun, fun page hpage => ?_⟩
      · rw [List.flatMap_singleton, hall]
      · cases List.mem_singleton.1 hpage
        exact ⟨htake, rfl, hall.symm.trans⟩
    | cons item rest =>
      have hfull : size limit < left.length := by
        by_contra hshort
        rw [List.drop_of_length_le (Nat.le_of_not_lt hshort)] at hdrop
        cases hdrop
      have hlength : (left.take (size limit)).length = size limit :=
        List.length_take_of_le hfull.le
      have hsuffix : item :: rest <:+ all :=
        hdrop ▸ (List.drop_suffix ..).trans (hleft ▸ List.dropWhile_suffix _)
      obtain ⟨front, rfl⟩ := hsuffix
      have hshorter : (item :: rest).length < n := by
        have hsize := size_pos limit
        rw [← hdrop, List.length_drop]
        omega
      obtain ⟨pages, htraversal, hitems, hsizes, hpages⟩ :=
        ih _ hshorter (some (key item)) (item :: rest) (dropWhile_isBefore h) rfl
      rw [hdrop] at hreads
      have hne : pages ≠ [] := by rintro rfl; cases htraversal
      refine ⟨_ :: pages, .next hreads rfl htraversal, ?_, fun page hpage => ?_,
        fun page hpage => ?_⟩
      · rw [List.flatMap_cons, hitems, ← hdrop]
        exact List.take_append_drop ..
      · rw [List.dropLast_cons_of_ne_nil hne] at hpage
        rcases List.mem_cons.1 hpage with rfl | hpage
        · exact hlength
        · exact hsizes page hpage
      · rcases List.mem_cons.1 hpage with rfl | hpage
        · refine ⟨htake, rfl, fun hempty => ?_⟩
          have hzero : size limit = 0 := hlength.symm.trans (congrArg List.length hempty)
          exact absurd hzero (size_pos limit).ne'
        · obtain ⟨hle, htotal, hempty⟩ := hpages page hpage
          exact ⟨hle, htotal, fun hnil => nomatch hempty hnil⟩

/-- A list that fills its pages has no empty page at its end. -/
example : cut id ["a", "b", "c", "d"] ⟨some "c", 2⟩ = ⟨["c", "d"], none, 4⟩ := by decide

/-- **A page begins at the least key that is not before its start**, whether or not the start is the
key of an item. -/
theorem head?_cut_iff (h : all.Pairwise fun a b => key a < key b) (start : String) (limit : Nat)
    (item : α) : (cut key all ⟨some start, limit⟩).items.head? = some item ↔
      item ∈ all ∧ start ≤ key item ∧ ∀ other ∈ all, start ≤ key other → key item ≤ key other := by
  have hhead : (cut key all ⟨some start, limit⟩).items.head? =
      all.find? fun other => !decide (key other < start) := by
    show (List.take (size limit) (all.dropWhile fun other => decide (key other < start))).head? = _
    rw [List.head?_take, if_neg (size_pos limit).ne', ← List.find?_not_eq_head?_dropWhile]
  rw [hhead, List.find?_eq_some_iff_append]
  simp only [Bool.not_eq_true', decide_eq_false_iff_not, not_lt, Bool.not_not, decide_eq_true_eq]
  constructor
  · rintro ⟨hitem, front, rest, rfl, hfront⟩
    refine ⟨by simp, hitem, fun other hother hle => ?_⟩
    rcases List.mem_append.1 hother with hother | hother
    · exact absurd (hfront other hother) (not_lt.2 hle)
    · rcases List.mem_cons.1 hother with rfl | hother
      · exact le_rfl
      · exact (List.rel_of_pairwise_cons (List.pairwise_append.1 h).2.1 hother).le
  · rintro ⟨hmem, hitem, hleast⟩
    obtain ⟨front, rest, rfl⟩ := List.append_of_mem hmem
    refine ⟨hitem, front, rest, rfl, fun other hother => ?_⟩
    have hlt := (List.pairwise_append.1 h).2.2 other hother item List.mem_cons_self
    by_contra hle
    exact absurd (hleast other (List.mem_append_left _ hother) (not_lt.1 hle)) (not_le.2 hlt)

/-- A list that is sorted by the key that its pages are cut by is visited. -/
theorem visits_cut (h : all.Pairwise fun a b => key a < key b)
    (hread : ∀ request, read request = .ok (cut key all request)) (limit : Nat) :
    Visits read key all limit where
  ascends := h
  traversal := by
    obtain ⟨pages, htraversal, hitems, hrest⟩ := exists_traversal h hread limit none
    have hall : all.dropWhile (fun item => isBefore none (key item)) = all := by
      cases all <;> rfl
    rw [hall] at hitems hrest
    refine ⟨pages, fun pages' => ⟨htraversal.unique, ?_⟩, hitems, hrest⟩
    rintro rfl
    exact htraversal
  begins start := ⟨_, hread _, head?_cut_iff h start limit⟩

end Page

namespace OrderedMap

variable {β : Type} {key : β → String}

/-- The values of a map that are stored under keys of their own ascend by these keys. -/
theorem pairwise_values {m : OrderedMap String β} (h : ∀ {k b}, m.get? k = some b → key b = k) :
    (m.toList.map (·.2)).Pairwise fun a b => key a < key b := by
  refine List.pairwise_map.2 (m.ascending.imp_of_mem fun {p q} hp hq hlt => ?_)
  rw [h (get?_eq_some_iff.2 hp), h (get?_eq_some_iff.2 hq)]
  exact compare_lt_iff_lt.1 hlt

/-- Such a value is found under its key. -/
theorem get?_iff_mem_values {m : OrderedMap String β}
    (h : ∀ {k b}, m.get? k = some b → key b = k) {k : String} {b : β} :
    m.get? k = some b ↔ b ∈ m.toList.map (·.2) ∧ key b = k := by
  rw [mem_values_iff]
  constructor
  · exact fun hk => ⟨⟨k, hk⟩, h hk⟩
  · rintro ⟨⟨k', hk'⟩, rfl⟩
    rwa [h hk']

end OrderedMap

namespace Query

variable {κ : Type} [Readable κ] [LawfulReadable κ] {r : κ} {reg : Registry}

/-- **The pages of chainlets and of stacks visit everything once.** The chainlets that are stored
are listed in the order of their chain ids and the stacks in the order of their names, and reading
either list in pages visits it, however many items a page has. -/
theorem pages_visit (hreg : reg.Filed) (hshows : reg.ShownBy r) (limit : Nat) :
    (∃ all, Readable.allChainlets r = .ok all ∧
      (∀ chainId c, Readable.chainlet? r chainId = .ok (some c) ↔ c ∈ all ∧ c.chainId = chainId) ∧
      Page.Visits (chainletPage r) (·.chainId) all limit) ∧
    ∃ all, Readable.allStacks r = .ok all ∧
      (∀ name stack, Readable.stack? r name = .ok (some stack) ↔ stack ∈ all ∧ stack.name = name) ∧
      Page.Visits (stackPage r) (·.name) all limit := by
  have hchainlets : ∀ {chainId c}, reg.chainlets.get? chainId = some c → c.chainId = chainId :=
    fun {chainId c} => hreg.chainlets chainId c
  have hstacks : ∀ {name stack}, reg.catalog.get? name = some stack → stack.name = name :=
    fun {_ _} h => (hreg.catalog h).1
  refine ⟨⟨_, hshows.allChainlets, fun chainId c => ?_, ?_⟩, _, hshows.allStacks,
    fun name stack => ?_, ?_⟩
  · rw [hshows.chainlet?_eq_some_iff, OrderedMap.get?_iff_mem_values hchainlets]
  · refine Page.visits_cut (OrderedMap.pairwise_values hchainlets) (fun request => ?_) limit
    rw [chainletPage, hshows.allChainlets]
    rfl
  · have hread : Readable.stack? r name = .ok (reg.catalog.get? name) := hshows.catalog.read? name
    rw [hread, Except.ok.injEq, OrderedMap.get?_iff_mem_values hstacks]
  · refine Page.visits_cut (OrderedMap.pairwise_values hstacks) (fun request => ?_) limit
    rw [stackPage, hshows.allStacks]
    rfl

/-- Three chainlets are read in pages of two. -/
theorem pages_visit_outdated :
    ∃ pages, Page.Traversal (chainletPage (Overlay.mk Operation.scarceHost.store
        Operation.outdatedMachine.context.updates)) 2 none pages ∧
      pages.flatMap (·.items) = Operation.outdated.chainlets := by
  obtain ⟨⟨all, hall, -, hvisits⟩, -⟩ := pages_visit
    Operation.wellFormed_outdated.registry.filed Operation.shownBy_outdated 2
  have hread : Readable.allChainlets (Overlay.mk Operation.scarceHost.store
      Operation.outdatedMachine.context.updates) = .ok Operation.outdated.chainlets := by
    decide +kernel
  obtain ⟨pages, hpages, hitems, -⟩ := hvisits.traversal
  exact ⟨pages, (hpages pages).2 rfl, hitems.trans (Except.ok.inj (hall.symm.trans hread))⟩

end Query

end Chainlets
