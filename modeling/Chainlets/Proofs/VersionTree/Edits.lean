import Chainlets.Proofs.VersionTree.Tracking

/-!
# Edited version trees

The trees that additions and removals of versions lead to from the tree that tracks nothing. None of
them has an empty node, and what one of them tracks is what its listings say.

## Main definitions

* `VersionTree.Edit` — an addition or a removal of a version.
* `VersionTree.after` — the tree after a sequence of edits.

## Main results

* `VersionTree.pruned_after` — edited trees have no empty nodes.
* `VersionTree.mem_versions_iff` — **the listing of a stack is what the tree tracks of it.**
-/

namespace Chainlets

/-! ### Listings -/

/-- The releases that are listed are those of the tree. -/
theorem ReleaseTree.mem_releases_iff {t : ReleaseTree} {r : Release} :
    r ∈ t.releases ↔ t.contains r = true := by
  rw [ReleaseTree.contains_iff, ReleaseTree.releases, List.mem_flatMap]
  constructor
  · rintro ⟨⟨major, minors⟩, hmajor, h⟩
    obtain ⟨⟨minor, patches⟩, hminor, h⟩ := List.mem_flatMap.1 h
    obtain ⟨patch, hpatch, rfl⟩ := List.mem_map.1 h
    exact ⟨minors, OrderedMap.get?_eq_some_iff.2 hmajor, patches,
      OrderedMap.get?_eq_some_iff.2 hminor, OrderedMap.mem_keys_iff.1 hpatch⟩
  · rintro ⟨minors, hmajor, patches, hminor, hpatch⟩
    exact ⟨(r.major, minors), OrderedMap.get?_eq_some_iff.1 hmajor, List.mem_flatMap.2
      ⟨(r.minor, patches), OrderedMap.get?_eq_some_iff.1 hminor, List.mem_map.2
        ⟨r.patch, OrderedMap.mem_keys_iff.2 hpatch, rfl⟩⟩⟩

namespace VersionTree

variable {t : VersionTree} {stack text : String}

/-- **The listing of a stack is what the tree tracks of it.** -/
theorem mem_versions_iff : text ∈ t.versions stack ↔ ∃ r, t.Tracks stack r ∧ r.render = text := by
  rw [versions]
  simp only [tracks_iff_getD]
  cases t.byStack.get? stack with
  | none => simp [ReleaseTree.contains_empty]
  | some releases => simp [ReleaseTree.mem_releases_iff]

/-! ### Edits -/

/-- A change of one version. -/
inductive Edit where
  /-- A version is added to a stack. -/
  | add (stack version : String)
  /-- A version is removed from a stack. -/
  | remove (stack version : String)

/-- The tree after an edit. A text that is no version changes nothing. -/
def edit (t : VersionTree) : Edit → VersionTree
  | .add stack version => (t.add stack version).toOption.getD t
  | .remove stack version => (t.remove stack version).toOption.getD t

/-- The tree after a sequence of edits. -/
def after (edits : List Edit) : VersionTree := edits.foldl edit ∅

theorem Pruned.edit (h : t.Pruned) (e : Edit) : (t.edit e).Pruned := by
  cases e with
  | add stack version =>
    rw [VersionTree.edit]
    cases hadd : t.add stack version with
    | error fault => exact h
    | ok t' =>
      obtain ⟨v, hv, -⟩ := Except.bind_eq_ok.1 hadd
      obtain ⟨_, hok, hpruned, -⟩ := t.add_ok stack hv
      cases hadd.symm.trans hok
      exact hpruned h
  | remove stack version =>
    rw [VersionTree.edit]
    cases hremove : t.remove stack version with
    | error fault => exact h
    | ok t' =>
      obtain ⟨v, hv, -⟩ := Except.bind_eq_ok.1 hremove
      obtain ⟨_, hok, hpruned, -⟩ := t.remove_ok stack hv
      cases hremove.symm.trans hok
      exact hpruned h

/-- No edit leaves an empty node. -/
theorem pruned_after (edits : List Edit) : (after edits).Pruned := by
  have hfold (t : VersionTree) (h : t.Pruned) : (edits.foldl VersionTree.edit t).Pruned := by
    induction edits generalizing t with
    | nil => exact h
    | cons e edits ih => exact ih (t.edit e) (h.edit e)
  exact hfold ∅ pruned_empty

end VersionTree

end Chainlets
