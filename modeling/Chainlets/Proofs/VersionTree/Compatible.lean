import Chainlets.Proofs.Version.Series
import Chainlets.VersionTree.Basic

/-!
# What the tree offers stays in the series

Automatic upgrades never ask whether a move is compatible: they move a chainlet to whatever the tree
offers. That is safe whatever the tree tracks, since a release is looked for under the major number
of the given version, and for major zero under its minor number as well, and these are what its
series consists of.

## Main definitions

* `VersionTree.newestOf?` — the newest release of a stack in the series of a version.

## Main results

* `ReleaseTree.series_newest?` — the newest release is in the series of the release it is sought
  for.
* `VersionTree.latestCompatible_eq_ok` — what the tree offers.
* `VersionTree.kind_latestCompatible` — **a move to what the tree offers is compatible.**
-/

namespace Chainlets

/-- Where the newest release in the series of a release stands: with the greatest patch number of
its minor number, which outside major zero is the greatest one of its major number. -/
theorem ReleaseTree.newest?_eq_some {t : ReleaseTree} {r newest : Release}
    (h : t.newest? r = some newest) :
    newest.major = r.major ∧ ∃ minors, OrderedMap.get? t r.major = some minors ∧
      ∃ patches, patches.last? = some (newest.patch, ()) ∧
        if r.major = 0 then newest.minor = r.minor ∧ minors.get? r.minor = some patches
        else minors.last? = some (newest.minor, patches) := by
  obtain ⟨minors, hminors, h⟩ := Option.bind_eq_some_iff.1 h
  dsimp only at h
  split at h
  next hzero =>
    obtain ⟨⟨minor, patches⟩, hminor, h⟩ := Option.bind_eq_some_iff.1 h
    obtain ⟨⟨patch, u⟩, hpatch, h⟩ := Option.bind_eq_some_iff.1 h
    obtain ⟨_, hget, heq⟩ := Option.map_eq_some_iff.1 hminor
    cases heq
    cases h
    exact ⟨rfl, minors, hminors, patches, hpatch, by rw [if_pos hzero]; exact ⟨rfl, hget⟩⟩
  next hpositive =>
    obtain ⟨⟨minor, patches⟩, hminor, h⟩ := Option.bind_eq_some_iff.1 h
    obtain ⟨⟨patch, u⟩, hpatch, h⟩ := Option.bind_eq_some_iff.1 h
    cases h
    exact ⟨rfl, minors, hminors, patches, hpatch, by rw [if_neg hpositive]; exact hminor⟩

/-- The newest release in the series of a release is in that series. -/
theorem ReleaseTree.series_newest? {t : ReleaseTree} {r newest : Release}
    (h : t.newest? r = some newest) : Series.ofRelease newest = Series.ofRelease r := by
  obtain ⟨hmajor, minors, -, patches, -, hminor⟩ := newest?_eq_some h
  rw [Series.ofRelease, Series.ofRelease, hmajor]
  split at hminor
  next hzero => rw [if_pos hzero, if_pos hzero, hminor.1]
  next hpositive => rw [if_neg hpositive, if_neg hpositive]

namespace VersionTree

variable {t : VersionTree} {stack current latest : String} {v : Version} {newest : Release}

/-- The newest release of a stack in the series of a version. -/
def newestOf? (t : VersionTree) (stack : String) (v : Version) : Option Release :=
  (t.byStack.get? stack).bind fun releases => releases.newest? v.release

theorem series_newestOf? (h : t.newestOf? stack v = some newest) :
    Series.ofRelease newest = v.series := by
  obtain ⟨releases, -, hnewest⟩ := Option.bind_eq_some_iff.1 h
  exact ReleaseTree.series_newest? hnewest

theorem latestCompatible_of_none (hv : Version.parse current = .ok v)
    (h : t.newestOf? stack v = none) : t.latestCompatible stack current = .ok current := by
  rw [newestOf?] at h
  rw [latestCompatible, hv]
  dsimp only [bind, Except.bind]
  rw [h]
  rfl

theorem latestCompatible_of_some (hv : Version.parse current = .ok v)
    (h : t.newestOf? stack v = some newest) : t.latestCompatible stack current =
      .ok (if v.IsBelow newest then newest.render else current) := by
  rw [newestOf?] at h
  rw [latestCompatible, hv]
  dsimp only [bind, Except.bind]
  rw [h]
  rfl

/-- The tree offers the given text again, or the newest release if the version is below it. -/
theorem latestCompatible_eq_ok (h : t.latestCompatible stack current = .ok latest) :
    ∃ v, Version.parse current = .ok v ∧ (latest = current ∨
      ∃ newest, t.newestOf? stack v = some newest ∧ v.IsBelow newest ∧
        latest = newest.render) := by
  obtain ⟨v, hv, -⟩ := Except.bind_eq_ok.1 h
  refine ⟨v, hv, ?_⟩
  cases hnewest : t.newestOf? stack v with
  | none => exact .inl (Except.ok.inj (h.symm.trans (latestCompatible_of_none hv hnewest)))
  | some newest =>
    have hlatest := Except.ok.inj (h.symm.trans (latestCompatible_of_some hv hnewest))
    split at hlatest
    next hbelow => exact .inr ⟨newest, rfl, hbelow, hlatest⟩
    next => exact .inl hlatest

/-- **A move to what the tree offers is compatible.** -/
theorem kind_latestCompatible (h : t.latestCompatible stack current = .ok latest) :
    Upgrade.kind current latest = .ok .compatible := by
  obtain ⟨v, hv, hlatest⟩ := latestCompatible_eq_ok h
  have hcurrent : v.series.Has current := ⟨v, hv, rfl⟩
  refine Upgrade.kind_eq_compatible_iff.2 ⟨_, hcurrent, ?_⟩
  rcases hlatest with rfl | ⟨newest, hnewest, -, rfl⟩
  · exact hcurrent
  · exact ⟨_, Version.isRelease_render newest, series_newestOf? hnewest⟩

end VersionTree

end Chainlets
