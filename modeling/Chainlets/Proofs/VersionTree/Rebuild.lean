import Chainlets.Proofs.Store.Family
import Chainlets.Proofs.VersionTree.Tracking
import Chainlets.VersionTree.Cache

/-!
# Rebuilding the version tree

Over a well-formed catalog of stacks the rebuilt tree exists, and tracks exactly the releases that
the stacks offer: those of their enabled versions without a suffix. Being the only tree without
empty nodes that does, it can be compared with a tree that was changed along with the stacks.

A tree that is changed along with a stack may have been loaded before or after the stack was
written. Both the addition and the removal of a version leave the tree of the new catalog either
way, because tracking a release twice, or taking one out twice, changes nothing.

## Main definitions

* `Stack.WellFormed`, `Catalog.WellFormed` — the versions of a stack are versions and can be told
  apart, and each stack is filed under its own name.
* `Stack.Offers` — a release that automatic upgrades may move chainlets to.
* `VersionTree.Indexes` — a tree tracks exactly what a catalog offers.

## Main results

* `VersionTree.rebuild_eq_ok_iff` — **the rebuilt tree is the one that indexes the catalog.**
* `VersionTree.Indexes.add`, `VersionTree.Indexes.remove` — what is done to the tree along with an
  addition or a removal of a version.
-/

namespace Chainlets

/-! ### Catalogs -/

/-- The stacks of a state, by name. -/
abbrev Catalog := OrderedMap String Stack

namespace Stack

/-- The versions are versions, and no two of them collide. -/
structure WellFormed (stack : Stack) : Prop where
  parses : ∀ {v}, v ∈ stack.versions → ∃ p, Version.parse v.version = .ok p
  apart : stack.versions.Pairwise fun v w => ¬ v.CollidesWith w

/-- An enabled version of a stack is a release without a suffix. -/
def Offers (stack : Stack) (r : Release) : Prop :=
  ∃ v ∈ stack.versions, v.enabled = true ∧ Version.IsRelease v.version r

theorem offers_addVersion (stack : Stack) (v : StackVersion) (r : Release) :
    (stack.addVersion v).Offers r ↔
      v.enabled = true ∧ Version.IsRelease v.version r ∨ stack.Offers r := by
  simp only [Offers, addVersion, List.mem_append, List.mem_singleton]
  constructor
  · rintro ⟨w, hw | rfl, h⟩
    · exact .inr ⟨w, hw, h⟩
    · exact .inl h
  · rintro (h | ⟨w, hw, h⟩)
    · exact ⟨v, .inr rfl, h⟩
    · exact ⟨w, .inl hw, h⟩

theorem WellFormed.addVersion {stack : Stack} (h : stack.WellFormed) {v : StackVersion}
    (hv : ∃ p, Version.parse v.version = .ok p)
    (hapart : ∀ w ∈ stack.versions, ¬ w.CollidesWith v) : (stack.addVersion v).WellFormed where
  parses {w} hw := by
    rcases List.mem_append.1 hw with hw | hw
    · exact h.parses hw
    · rw [List.mem_singleton.1 hw]
      exact hv
  apart := List.pairwise_append.2 ⟨h.apart, List.pairwise_singleton _ v, fun w hw x hx =>
    List.mem_singleton.1 hx ▸ hapart w hw⟩

/-! Disabling a version changes nothing that versions are told apart by. -/

theorem exists_of_mem_disableFirst {version : String} {w : StackVersion} {l : List StackVersion}
    (h : w ∈ disableFirst version l) :
    ∃ v ∈ l, w = { v with enabled := w.enabled } := by
  induction l with
  | nil => cases h
  | cons v l ih =>
    rw [disableFirst] at h
    split at h
    next =>
      rcases List.mem_cons.1 h with rfl | h
      · exact ⟨v, List.mem_cons_self, rfl⟩
      · exact ⟨w, List.mem_cons_of_mem _ h, rfl⟩
    next =>
      rcases List.mem_cons.1 h with rfl | h
      · exact ⟨w, List.mem_cons_self, rfl⟩
      · obtain ⟨x, hx, heq⟩ := ih h
        exact ⟨x, List.mem_cons_of_mem _ hx, heq⟩

theorem collidesWith_of_eq_enabled (v : StackVersion) {v' w w' : StackVersion}
    (hv : v' = { v with enabled := v'.enabled })
    (hw : w' = { w with enabled := w'.enabled }) : v'.CollidesWith w' ↔ v.CollidesWith w := by
  rw [hv, hw]
  rfl

theorem pairwise_disableFirst {version : String} {l : List StackVersion}
    (h : l.Pairwise fun v w => ¬ v.CollidesWith w) :
    (disableFirst version l).Pairwise fun v w => ¬ v.CollidesWith w := by
  induction l with
  | nil => exact .nil
  | cons v l ih =>
    rw [disableFirst]
    split
    next =>
      exact h.of_cons.cons fun w hw hcollide => List.rel_of_pairwise_cons h hw hcollide
    next =>
      refine (ih h.of_cons).cons fun w hw hcollide => ?_
      obtain ⟨x, hx, heq⟩ := exists_of_mem_disableFirst hw
      exact List.rel_of_pairwise_cons h hx
        ((collidesWith_of_eq_enabled v rfl heq).1 hcollide)

theorem WellFormed.disable {stack : Stack} (h : stack.WellFormed) (version : String) :
    (stack.disable version).WellFormed where
  parses {w} hw := by
    obtain ⟨v, hv, heq⟩ := exists_of_mem_disableFirst hw
    have hversion : w.version = v.version := by rw [heq]
    rw [hversion]
    exact h.parses hv
  apart := pairwise_disableFirst h.apart

/-- The versions that are enabled after one was disabled are the others that were. -/
theorem mem_disableFirst_enabled_iff {version : String} {w : StackVersion} {l : List StackVersion}
    (h : l.Pairwise fun v w => ¬ v.CollidesWith w) (hw : w.enabled = true) :
    w ∈ disableFirst version l ↔ w ∈ l ∧ w.version ≠ version := by
  induction l with
  | nil => simp [disableFirst]
  | cons v l ih =>
    have hv : ∀ x ∈ l, v.version ≠ x.version := fun x hx heq =>
      List.rel_of_pairwise_cons h hx (.inr (.inl heq))
    rw [disableFirst]
    split
    next heq =>
      rw [List.mem_cons, List.mem_cons]
      constructor
      · rintro (rfl | hmem)
        · cases hw
        · exact ⟨.inr hmem, fun hx => hv w hmem (heq.trans hx.symm)⟩
      · rintro ⟨rfl | hmem, hne⟩
        · exact absurd heq hne
        · exact .inr hmem
    next hne =>
      rw [List.mem_cons, List.mem_cons, ih h.of_cons]
      constructor
      · rintro (rfl | ⟨hmem, hx⟩)
        · exact ⟨.inl rfl, hne⟩
        · exact ⟨.inr hmem, hx⟩
      · rintro ⟨rfl | hmem, hx⟩
        · exact .inl rfl
        · exact .inr ⟨hmem, hx⟩

/-- **Disabling a version takes its release out of the offers, and no other one**: two versions of
one release would have the same text. -/
theorem offers_disable {stack : Stack} (h : stack.WellFormed) (version : String) (r : Release) :
    (stack.disable version).Offers r ↔ ¬ Version.IsRelease version r ∧ stack.Offers r := by
  constructor
  · rintro ⟨w, hw, henabled, hr⟩
    obtain ⟨hmem, hne⟩ := (mem_disableFirst_enabled_iff h.apart henabled).1 hw
    exact ⟨fun hr' => hne (hr.text_unique hr'), w, hmem, henabled, hr⟩
  · rintro ⟨hnot, w, hmem, henabled, hr⟩
    refine ⟨w, (mem_disableFirst_enabled_iff h.apart henabled).2 ⟨hmem, ?_⟩, henabled, hr⟩
    rintro rfl
    exact hnot hr

end Stack

namespace Catalog

/-- Every stack is filed under its own name and is well-formed. -/
def WellFormed (catalog : Catalog) : Prop :=
  ∀ {name stack}, catalog.get? name = some stack → stack.name = name ∧ stack.WellFormed

/-- A stack of the catalog offers a release. -/
def Offers (catalog : Catalog) (name : String) (r : Release) : Prop :=
  ∃ stack, OrderedMap.get? catalog name = some stack ∧ stack.Offers r

theorem WellFormed.insert {catalog : Catalog} (h : WellFormed catalog) {stack : Stack}
    (hstack : stack.WellFormed) : WellFormed (catalog.insert stack.name stack) := by
  intro name stack' hget
  rcases OrderedMap.get?_insert_cases hget with ⟨rfl, rfl⟩ | hget
  · exact ⟨rfl, hstack⟩
  · exact h hget

theorem offers_insert {catalog : Catalog} {stack : Stack} {name : String} {r : Release} :
    Offers (catalog.insert stack.name stack) name r ↔
      if name = stack.name then stack.Offers r else Offers catalog name r := by
  rw [Offers, OrderedMap.get?_insert]
  split
  next => simp
  next => exact Iff.rfl

end Catalog

/-! ### Rebuilding -/

namespace VersionTree

/-- A tree without empty nodes tracks exactly what a catalog offers. -/
structure Indexes (t : VersionTree) (catalog : Catalog) : Prop where
  pruned : t.Pruned
  tracks_iff : ∀ name r, t.Tracks name r ↔ Catalog.Offers catalog name r

/-- A catalog has at most one index. -/
theorem Indexes.unique {t t' : VersionTree} {catalog : Catalog} (h : t.Indexes catalog)
    (h' : t'.Indexes catalog) : t = t' :=
  ext_tracks h.pruned h'.pruned fun name r =>
    (h.tracks_iff name r).trans (h'.tracks_iff name r).symm

/-- The enabled versions of a stack go into the tree as what the stack offers. -/
theorem addEnabled_ok (t : VersionTree) {stack : Stack} (h : stack.WellFormed) :
    ∃ t', t.addEnabled stack = .ok t' ∧ (t.Pruned → t'.Pruned) ∧
      ∀ name r, t'.Tracks name r ↔ name = stack.name ∧ stack.Offers r ∨ t.Tracks name r := by
  have hparses : ∀ v ∈ stack.enabledVersions, ∃ p, Version.parse v.version = .ok p := fun v hv =>
    h.parses (List.mem_filter.1 hv).1
  have hfold : ∀ (l : List StackVersion) (t : VersionTree),
      (∀ v ∈ l, ∃ p, Version.parse v.version = .ok p) →
      ∃ t', l.foldlM (fun t v => t.add stack.name v.version) t = .ok t' ∧ (t.Pruned → t'.Pruned) ∧
        ∀ name r, t'.Tracks name r ↔
          name = stack.name ∧ (∃ v ∈ l, Version.IsRelease v.version r) ∨ t.Tracks name r := by
    intro l
    induction l with
    | nil => exact fun t _ => ⟨t, rfl, id, by simp⟩
    | cons v l ih =>
      intro t hl
      obtain ⟨p, hp⟩ := hl v List.mem_cons_self
      obtain ⟨t₁, hadd, hpruned, htracks⟩ := add_ok t stack.name hp
      obtain ⟨t₂, hrest, hpruned', htracks'⟩ := ih t₁ fun w hw => hl w (List.mem_cons_of_mem _ hw)
      refine ⟨t₂, ?_, hpruned' ∘ hpruned, fun name r => ?_⟩
      · rw [List.foldlM_cons, hadd]
        exact hrest
      · rw [htracks', htracks]
        simp only [List.mem_cons, exists_eq_or_imp, and_or_left, or_assoc]
        exact or_left_comm
  obtain ⟨t', hok, hpruned, htracks⟩ := hfold stack.enabledVersions t hparses
  refine ⟨t', hok, hpruned, fun name r => ?_⟩
  rw [htracks]
  simp only [Stack.Offers, Stack.enabledVersions, List.mem_filter, and_assoc]

/-- Stacks go into the tree one after the other. -/
theorem foldlM_addEnabled_ok {l : List Stack} (t : VersionTree)
    (h : ∀ stack ∈ l, stack.WellFormed) :
    ∃ t', l.foldlM addEnabled t = .ok t' ∧ (t.Pruned → t'.Pruned) ∧
      ∀ name r, t'.Tracks name r ↔
        (∃ stack ∈ l, name = stack.name ∧ stack.Offers r) ∨ t.Tracks name r := by
  induction l generalizing t with
  | nil => exact ⟨t, rfl, id, by simp⟩
  | cons stack l ih =>
    obtain ⟨t₁, hadd, hpruned, htracks⟩ := addEnabled_ok t (h stack List.mem_cons_self)
    obtain ⟨t₂, hrest, hpruned', htracks'⟩ := ih t₁ fun s hs => h s (List.mem_cons_of_mem _ hs)
    refine ⟨t₂, ?_, hpruned' ∘ hpruned, fun name r => ?_⟩
    · rw [List.foldlM_cons, hadd]
      exact hrest
    · rw [htracks', htracks]
      simp only [List.mem_cons, exists_eq_or_imp, or_assoc]
      exact or_left_comm

variable {κ : Type} [Readable κ] [LawfulReadable κ] {r : κ} {catalog : Catalog}

theorem allStacks_eq (h : Family.catalog.Shows r catalog) :
    Readable.allStacks r = .ok (catalog.toList.map (·.2)) := by
  have hread := h.readAll
  rw [Readable.allStacks]
  change (Readable.readAll r Family.catalog.mark Family.catalog.entry >>= _) = _
  rw [hread]
  rfl

/-- **The tree of a well-formed catalog exists and indexes it.** -/
theorem rebuild_ok (h : Family.catalog.Shows r catalog) (hwf : Catalog.WellFormed catalog) :
    ∃ t, rebuild r = .ok t ∧ t.Indexes catalog := by
  have hmem : ∀ stack ∈ catalog.toList.map (·.2), stack.WellFormed := by
    intro stack hstack
    obtain ⟨e, he, rfl⟩ := List.mem_map.1 hstack
    exact (hwf (OrderedMap.get?_eq_some_iff.2 he)).2
  obtain ⟨t, hok, hpruned, htracks⟩ := foldlM_addEnabled_ok ∅ hmem
  refine ⟨t, ?_, hpruned pruned_empty, fun name release => ?_⟩
  · have hcatalog : ofStacks (catalog.toList.map (·.2)) = .ok t := hok
    rw [rebuild, allStacks_eq h]
    change (ofStacks (catalog.toList.map (·.2))).mapError Failure.badVersion = _
    rw [hcatalog]
    rfl
  · rw [htracks, or_iff_left (not_tracks_empty name release), Catalog.Offers]
    constructor
    · rintro ⟨stack, hstack, rfl, hoffers⟩
      obtain ⟨e, he, rfl⟩ := List.mem_map.1 hstack
      have hget := OrderedMap.get?_eq_some_iff.2 he
      exact ⟨e.2, by rw [(hwf hget).1]; exact hget, hoffers⟩
    · rintro ⟨stack, hget, hoffers⟩
      have he := OrderedMap.get?_eq_some_iff.1 hget
      exact ⟨stack, List.mem_map.2 ⟨_, he, rfl⟩, (hwf hget).1.symm, hoffers⟩

/-- **The rebuilt tree is the one that indexes the catalog.** -/
theorem rebuild_eq_ok_iff (h : Family.catalog.Shows r catalog) (hwf : Catalog.WellFormed catalog)
    {t : VersionTree} : rebuild r = .ok t ↔ t.Indexes catalog := by
  obtain ⟨t', hok, hindex⟩ := rebuild_ok h hwf
  rw [hok, Except.ok.injEq]
  exact ⟨fun heq => heq ▸ hindex, fun ht => hindex.unique ht⟩

/-- The rebuilt tree depends on the stacks alone. -/
theorem rebuild_congr {κ' : Type} [Readable κ'] [LawfulReadable κ'] {r' : κ'}
    (h : ∀ k, Readable.get? r (Entry.stackMark :: k) = Readable.get? r' (Entry.stackMark :: k)) :
    rebuild r = rebuild r' := by
  have hscan : Readable.scan r [Entry.stackMark] = Readable.scan r' [Entry.stackMark] := by
    refine Readable.scan_congr fun k hk => ?_
    obtain ⟨k', rfl⟩ := Bytes.startsWith_mark_iff.1 hk
    exact h k'
  rw [rebuild, rebuild, Readable.allStacks, Readable.allStacks, Readable.readAll, Readable.readAll,
    hscan]

/-! ### Changes along with a stack -/

/-- **A version that is added to the tree along with a stack** leaves the index of the new catalog,
whether the tree was that of the old catalog or of the new one. -/
theorem Indexes.add {t : VersionTree} {stack : Stack} {version : String} {p : Version}
    (ht : t.Indexes catalog ∨ t.Indexes (catalog.insert stack.name stack))
    (hp : Version.parse version = .ok p)
    (hstack : ∀ r, stack.Offers r ↔
      Version.IsRelease version r ∨ Catalog.Offers catalog stack.name r) :
    ∃ t', t.add stack.name version = .ok t' ∧ t'.Indexes (catalog.insert stack.name stack) := by
  obtain ⟨t', hadd, hpruned, htracks⟩ := add_ok t stack.name hp
  refine ⟨t', hadd, hpruned (ht.elim (·.pruned) (·.pruned)), fun name r => ?_⟩
  rw [htracks, Catalog.offers_insert]
  rcases ht with ht | ht
  · rw [ht.tracks_iff]
    by_cases hname : name = stack.name
    · simp [hname, hstack]
    · simp [hname]
  · rw [ht.tracks_iff, Catalog.offers_insert]
    by_cases hname : name = stack.name
    · simp only [hname, true_and, if_true, hstack]
      exact ⟨fun h => h.elim .inl id, .inr⟩
    · simp [hname]

/-- **A version that is removed from the tree along with a stack** leaves the index of the new
catalog, whether the tree was that of the old catalog or of the new one. -/
theorem Indexes.remove {t : VersionTree} {stack : Stack} {version : String} {p : Version}
    (ht : t.Indexes catalog ∨ t.Indexes (catalog.insert stack.name stack))
    (hp : Version.parse version = .ok p)
    (hstack : ∀ r, stack.Offers r ↔
      ¬ Version.IsRelease version r ∧ Catalog.Offers catalog stack.name r) :
    ∃ t', t.remove stack.name version = .ok t' ∧
      t'.Indexes (catalog.insert stack.name stack) := by
  obtain ⟨t', hremove, hpruned, htracks⟩ := remove_ok t stack.name hp
  refine ⟨t', hremove, hpruned (ht.elim (·.pruned) (·.pruned)), fun name r => ?_⟩
  rw [htracks, Catalog.offers_insert]
  rcases ht with ht | ht
  · rw [ht.tracks_iff]
    by_cases hname : name = stack.name
    · simp [hname, hstack]
    · simp [hname]
  · rw [ht.tracks_iff, Catalog.offers_insert]
    by_cases hname : name = stack.name
    · simp only [hname, true_and, if_true, hstack]
      exact ⟨fun h => h.2, fun h => ⟨h.1, h⟩⟩
    · simp [hname]

end VersionTree

end Chainlets
