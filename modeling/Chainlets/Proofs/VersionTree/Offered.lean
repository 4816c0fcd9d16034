import Chainlets.Proofs.VersionTree.Compatible
import Chainlets.Proofs.VersionTree.Rebuild

/-!
# What the tree offers is enabled

The tree holds numbers, and what it offers is a text printed from them. That the stack has this very
text enabled is not a matter of course: the tree has the release because some enabled version of the
stack has it, and that version is the one whose text is printed, since a release has one text only.
The version is found under its text, since no other version of the stack has the same.

## Main definitions

* `Catalog.Enables` — a version can be launched and upgraded to.

## Main results

* `ReleaseTree.contains_newest?` — the newest release is one of the tree.
* `VersionTree.Indexes.enables_latestCompatible` — **what the tree of the stacks offers is
  enabled.**
-/

namespace Chainlets

/-- A stack of the catalog has a version that can be launched and upgraded to. -/
def Catalog.Enables (catalog : Catalog) (stack version : String) : Prop :=
  ∃ found v, OrderedMap.get? catalog stack = some found ∧ found.enabled? version = some v

/-- The newest release in the series of a release is one of the tree. -/
theorem ReleaseTree.contains_newest? {t : ReleaseTree} {r newest : Release}
    (h : t.newest? r = some newest) : t.contains newest = true := by
  obtain ⟨hmajor, minors, hminors, patches, hpatch, hminor⟩ := newest?_eq_some h
  have hget : minors.get? newest.minor = some patches := by
    split at hminor
    next => rw [hminor.1]; exact hminor.2
    next => exact OrderedMap.get?_of_last? hminor
  refine ReleaseTree.contains_iff.2 ⟨minors, hmajor ▸ hminors, patches, hget, ?_⟩
  rw [OrderedMap.contains, OrderedMap.get?_of_last? hpatch]
  rfl

/-- A version of a stack is found under its text. -/
theorem Stack.WellFormed.version?_of_mem {stack : Stack} (h : stack.WellFormed) {v : StackVersion}
    (hv : v ∈ stack.versions) : stack.version? v.version = some v := by
  have hapart := h.apart
  rw [Stack.version?]
  generalize stack.versions = l at hv hapart
  induction l with
  | nil => cases hv
  | cons w l ih =>
    rcases List.mem_cons.1 hv with rfl | hv
    · exact List.find?_cons_of_pos (decide_eq_true rfl)
    · have hne : w.version ≠ v.version := fun heq =>
        List.rel_of_pairwise_cons hapart hv (.inr (.inl heq))
      rw [List.find?_cons_of_neg (by simpa using hne)]
      exact ih hv hapart.of_cons

/-- The newest release of a series is tracked. -/
theorem VersionTree.tracks_newestOf? {t : VersionTree} {stack : String} {v : Version}
    {newest : Release} (h : t.newestOf? stack v = some newest) : t.Tracks stack newest := by
  obtain ⟨releases, hreleases, hnewest⟩ := Option.bind_eq_some_iff.1 h
  exact ⟨releases, hreleases, ReleaseTree.contains_newest? hnewest⟩

/-- **What the tree of the stacks offers is enabled.** -/
theorem VersionTree.Indexes.enables_latestCompatible {t : VersionTree} {catalog : Catalog}
    (ht : t.Indexes catalog) (hcatalog : Catalog.WellFormed catalog) {stack current latest : String}
    (h : t.latestCompatible stack current = .ok latest) (hother : latest ≠ current) :
    Catalog.Enables catalog stack latest := by
  obtain ⟨v, -, hlatest⟩ := latestCompatible_eq_ok h
  obtain ⟨newest, hnewest, -, rfl⟩ := hlatest.resolve_left hother
  obtain ⟨found, hfound, w, hw, henabled, hrelease⟩ :=
    (ht.tracks_iff stack newest).1 (tracks_newestOf? hnewest)
  have hfinds := (hcatalog hfound).2.version?_of_mem hw
  rw [Version.eq_render_of_isRelease hrelease] at hfinds
  exact ⟨found, w, hfound, by rw [Stack.enabled?, hfinds]; simp [henabled]⟩

end Chainlets
