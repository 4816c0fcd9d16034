import Chainlets.Proofs.Version.Precedence
import Chainlets.Proofs.VersionTree.Edits
import Chainlets.Proofs.VersionTree.Offered

/-!
# The tree offers the greatest compatible version

What the tree offers for a version is the greatest release that it lists of the series, if that is
above the version, and else the version itself. The tree has no lists by series: it goes to the
major number, and from there to the minor number of the version or to the greatest one. The greatest
minor number is of use only since every number in the tree has one under it, which is why an empty
node would hide what is below it.

## Main definitions

* `VersionTree.Unsurpassed` — nothing that is listed of the series of a version is above it.
* `VersionTree.IsNewest` — a listed version is the greatest one of its series.

## Main results

* `ReleaseTree.eq_or_lt_newest?` — nothing in the series is above the newest release.
* `ReleaseTree.Pruned.exists_newest?` — there is a newest release if there is any in the series.
* `VersionTree.latestCompatible_after` — **the tree offers the greatest compatible version.**
-/

namespace Chainlets

/-! ### The newest release of a series -/

/-- Releases are in one series if their major numbers are the same, and for major zero their minor
numbers as well. -/
theorem Series.ofRelease_eq_iff {r s : Release} :
    ofRelease s = ofRelease r ↔ s.major = r.major ∧ (r.major = 0 → s.minor = r.minor) := by
  rw [ofRelease, ofRelease]
  by_cases hs : s.major = 0
  · by_cases hr : r.major = 0
    · simp [hs, hr]
    · simp [hs, hr, Ne.symm hr]
  · by_cases hr : r.major = 0
    · simp [hs, hr]
    · simp [hs, hr]

namespace ReleaseTree

variable {t : ReleaseTree} {r s newest : Release}

/-- The newest release is sought for a series, not for a release. -/
theorem newest?_congr (h : Series.ofRelease s = Series.ofRelease r) :
    t.newest? s = t.newest? r := by
  obtain ⟨hmajor, hminor⟩ := Series.ofRelease_eq_iff.1 h
  rw [newest?, newest?, hmajor]
  by_cases hzero : r.major = 0
  · rw [hminor hzero]
  · simp only [if_neg hzero]

/-- **Nothing in the series is above the newest release.** -/
theorem eq_or_lt_newest? (h : t.newest? r = some newest) (hs : t.contains s = true)
    (hseries : Series.ofRelease s = Series.ofRelease r) : s = newest ∨ s < newest := by
  obtain ⟨hmajor, minors, hminors, patches, hlast, hminor⟩ := newest?_eq_some h
  obtain ⟨minors', hminors', patches', hpatches, hpatch⟩ := contains_iff.1 hs
  obtain ⟨u, hpatch⟩ := Option.isSome_iff_exists.1 hpatch
  obtain ⟨hsmajor, hsminor⟩ := Series.ofRelease_eq_iff.1 hseries
  rw [hsmajor, hminors] at hminors'
  cases hminors'
  have hsame : s.major = newest.major := hsmajor.trans hmajor.symm
  have hunder (hs : s.minor = newest.minor) (hget : minors.get? newest.minor = some patches) :
      s = newest ∨ s < newest := by
    rw [hs, hget] at hpatches
    cases hpatches
    rcases OrderedMap.eq_or_lt_of_last? hlast hpatch with heq | hlt
    · left
      cases s
      cases newest
      cases hsame
      cases hs
      cases heq
      rfl
    · exact .inr (.inr ⟨hsame, .inr ⟨hs, Std.compare_eq_lt.1 hlt⟩⟩)
  split at hminor
  next hzero => exact hunder ((hsminor hzero).trans hminor.1.symm) (hminor.1 ▸ hminor.2)
  next =>
    rcases OrderedMap.eq_or_lt_of_last? hminor hpatches with heq | hlt
    · exact hunder heq (OrderedMap.get?_of_last? hminor)
    · exact .inr (.inr ⟨hsame, .inl (Std.compare_eq_lt.1 hlt)⟩)

/-- **There is a newest release if there is any in the series.** -/
theorem Pruned.exists_newest? (ht : t.Pruned) (hs : t.contains s = true)
    (hseries : Series.ofRelease s = Series.ofRelease r) : ∃ newest, t.newest? r = some newest := by
  obtain ⟨minors, hminors, patches, hpatches, hpatch⟩ := contains_iff.1 hs
  obtain ⟨hsmajor, hsminor⟩ := Series.ofRelease_eq_iff.1 hseries
  rw [hsmajor] at hminors
  have hnonempty := (ht r.major minors hminors).2
  rw [newest?, hminors]
  by_cases hzero : r.major = 0
  · rw [hsminor hzero] at hpatches
    obtain ⟨patch, u, hlast⟩ := OrderedMap.exists_last? (hnonempty _ _ hpatches)
    exact ⟨⟨r.major, r.minor, patch⟩, by simp [hzero, hpatches, hlast]⟩
  · obtain ⟨minor, below, hbelow⟩ := OrderedMap.exists_last? (ht r.major minors hminors).1
    obtain ⟨patch, u, hlast⟩ :=
      OrderedMap.exists_last? (hnonempty _ _ (OrderedMap.get?_of_last? hbelow))
    exact ⟨⟨r.major, minor, patch⟩, by simp [hzero, hbelow, hlast]⟩

end ReleaseTree

/-! ### What the tree offers -/

namespace VersionTree

/-- Nothing that is listed of a stack in the series of a version is above it. -/
def Unsurpassed (t : VersionTree) (stack : String) (v : Version) : Prop :=
  ∀ text ∈ t.versions stack, ∃ w, Version.parse text = .ok w ∧
    (w.series = v.series → ¬ v.Precedes w)

/-- A text is listed of a stack, and what else is listed of its series is below it. -/
structure IsNewest (t : VersionTree) (stack text : String) (v : Version) : Prop where
  listed : text ∈ t.versions stack
  parses : Version.parse text = .ok v
  above : ∀ other ∈ t.versions stack, other ≠ text →
    ∃ w, Version.parse other = .ok w ∧ (w.series = v.series → w.Precedes v)

variable {t : VersionTree} {stack current latest : String} {v : Version} {newest : Release}

theorem newestOf?_congr {w : Version} (h : w.series = v.series) :
    t.newestOf? stack w = t.newestOf? stack v := by
  rw [newestOf?, newestOf?]
  exact congrArg _ (funext fun releases => releases.newest?_congr h)

/-- Nothing that is tracked of a series is above its newest release. -/
theorem eq_or_lt_newestOf? (h : t.newestOf? stack v = some newest) {r : Release}
    (hr : t.Tracks stack r) (hseries : Series.ofRelease r = v.series) :
    r = newest ∨ r < newest := by
  obtain ⟨releases, hreleases, hnewest⟩ := Option.bind_eq_some_iff.1 h
  obtain ⟨releases', hreleases', hr⟩ := hr
  cases hreleases.symm.trans hreleases'
  exact ReleaseTree.eq_or_lt_newest? hnewest hr hseries

/-- Where there is no newest release of a series, nothing is tracked of it. -/
theorem Pruned.series_ne_of_newestOf? (ht : t.Pruned) (h : t.newestOf? stack v = none) {r : Release}
    (hr : t.Tracks stack r) : Series.ofRelease r ≠ v.series := fun hseries => by
  obtain ⟨releases, hreleases, hr⟩ := hr
  obtain ⟨newest, hnewest⟩ := (ht stack releases hreleases).2.exists_newest? hr hseries
  have hsome : t.newestOf? stack v = some newest := by
    rw [newestOf?, hreleases]
    exact hnewest
  rw [h] at hsome
  cases hsome

/-- What is listed stands for tracked releases, so these decide whether a version is surpassed. -/
theorem unsurpassed_of_tracks
    (h : ∀ r, t.Tracks stack r → Series.ofRelease r = v.series → ¬ v.IsBelow r) :
    t.Unsurpassed stack v := fun text htext => by
  obtain ⟨r, hr, rfl⟩ := mem_versions_iff.1 htext
  refine ⟨_, Version.isRelease_render r, fun hseries hprecedes => ?_⟩
  exact h r hr hseries (Version.precedes_bare_iff.1 hprecedes)

/-- The newest release is the greatest one that is listed. -/
theorem isNewest_render (h : t.newestOf? stack v = some newest) :
    t.IsNewest stack newest.render ⟨newest, "", ""⟩ := by
  refine ⟨mem_versions_iff.2 ⟨newest, tracks_newestOf? h, rfl⟩,
    Version.isRelease_render newest, ?_⟩
  intro other hother hne
  obtain ⟨r, hr, rfl⟩ := mem_versions_iff.1 hother
  refine ⟨_, Version.isRelease_render r, fun hsame => Version.bare_precedes_bare_iff.2 ?_⟩
  rcases eq_or_lt_newestOf? h hr (hsame.trans (series_newestOf? h)) with rfl | hlt
  · exact absurd rfl hne
  · exact hlt

/-- A version that is not below the newest release is not below any. -/
theorem unsurpassed_of_not_isBelow (h : t.newestOf? stack v = some newest)
    (hbelow : ¬ v.IsBelow newest) : t.Unsurpassed stack v := by
  refine unsurpassed_of_tracks fun r hr hseries hr' => ?_
  rcases eq_or_lt_newestOf? h hr hseries with rfl | hlt
  · exact hbelow hr'
  · exact hbelow (hr'.trans_lt hlt)

/-- What the tree offers has nothing newer to offer. -/
theorem latestCompatible_idem (h : t.latestCompatible stack current = .ok latest) :
    t.latestCompatible stack latest = .ok latest := by
  obtain ⟨v, -, rfl | ⟨newest, hnewest, -, rfl⟩⟩ := latestCompatible_eq_ok h
  · exact h
  · have hseries : Version.series ⟨newest, "", ""⟩ = v.series := series_newestOf? hnewest
    have hagain : t.newestOf? stack ⟨newest, "", ""⟩ = some newest :=
      (newestOf?_congr hseries).trans hnewest
    rw [latestCompatible_of_some (Version.isRelease_render newest) hagain,
      if_neg (Version.not_isBelow_bare newest)]

/-- **The tree offers the greatest compatible version.** Either the given text is no version, and
this is what the answer says. Or the answer can be moved to at once, and is the given text, if
nothing in its series is above it, or else the greatest version that is listed of its series. What
was offered is offered again when it is asked about. -/
theorem latestCompatible_after (edits : List Edit) (stack current : String) :
    (∃ fault, Version.parse current = .error fault ∧
      (after edits).latestCompatible stack current = .error fault) ∨
    ∃ v latest, Version.parse current = .ok v ∧
      (after edits).latestCompatible stack current = .ok latest ∧
      Upgrade.kind current latest = .ok .compatible ∧
      (latest = current ∧ (after edits).Unsurpassed stack v ∨
        ∃ w, (after edits).IsNewest stack latest w ∧ w.series = v.series ∧ v.Precedes w) ∧
      (after edits).latestCompatible stack latest = .ok latest := by
  have ht := pruned_after edits
  generalize after edits = t at ht
  cases hv : Version.parse current with
  | error fault => exact .inl ⟨fault, rfl, by rw [latestCompatible, hv]; rfl⟩
  | ok v =>
    suffices h : ∃ latest, t.latestCompatible stack current = .ok latest ∧
        (latest = current ∧ t.Unsurpassed stack v ∨
          ∃ w, t.IsNewest stack latest w ∧ w.series = v.series ∧ v.Precedes w) by
      obtain ⟨latest, hlatest, hchoice⟩ := h
      exact .inr ⟨v, latest, rfl, hlatest, kind_latestCompatible hlatest, hchoice,
        latestCompatible_idem hlatest⟩
    cases hnewest : t.newestOf? stack v with
    | none =>
      refine ⟨current, latestCompatible_of_none hv hnewest, .inl ⟨rfl, ?_⟩⟩
      exact unsurpassed_of_tracks fun r hr hseries =>
        absurd hseries (ht.series_ne_of_newestOf? hnewest hr)
    | some newest =>
      have hanswer := latestCompatible_of_some hv hnewest
      split at hanswer
      next hbelow =>
        exact ⟨newest.render, hanswer, .inr ⟨_, isNewest_render hnewest,
          series_newestOf? hnewest, Version.precedes_bare_iff.2 hbelow⟩⟩
      next hnot =>
        exact ⟨current, hanswer, .inl ⟨rfl, unsurpassed_of_not_isBelow hnewest hnot⟩⟩

end VersionTree

end Chainlets
