import Chainlets.Proofs.Version.Spelling

/-!
# The order of versions

The order of semantic versions, pre-releases included. A release is above all its own pre-releases,
and these are compared segment by segment. Build metadata has no say.

The tree compares a given version, which may have any suffix, with a release, which has none. For
that the numbers decide, and where they are the same, whether there is a pre-release.

## Main definitions

* `Version.compare`, `Version.Precedes` — the order of versions.

## Main results

* `Version.precedes_bare_iff` — **the comparison of a version with a release is that of the order.**
* `Version.bare_precedes_bare_iff` — bare releases are in the order of their numbers.
-/

namespace Chainlets

/-! ### Releases -/

namespace Release

variable {r s u : Release}

/-- The order of releases: their numbers from the left. -/
protected def compare (r s : Release) : Ordering :=
  (compare r.major s.major).then <| (compare r.minor s.minor).then <| compare r.patch s.patch

theorem compare_eq_lt_iff : r.compare s = .lt ↔ r < s := by
  rw [Release.compare, Ordering.then_eq_lt, Ordering.then_eq_lt]
  simp only [Std.compare_eq_lt, Std.LawfulEqCmp.compare_eq_iff_eq]
  rfl

theorem compare_eq_eq_iff : r.compare s = .eq ↔ r = s := by
  rw [Release.compare, Ordering.then_eq_eq, Ordering.then_eq_eq]
  simp only [Std.LawfulEqCmp.compare_eq_iff_eq]
  cases r
  cases s
  simp

protected theorem lt_trans (h : r < s) (h' : s < u) : r < u := by
  rcases h with h | ⟨hmajor, h⟩
  · rcases h' with h' | ⟨hmajor', -⟩
    · exact .inl (UInt64.lt_trans h h')
    · exact .inl (hmajor' ▸ h)
  · rcases h' with h' | ⟨hmajor', h'⟩
    · exact .inl (hmajor ▸ h')
    · refine .inr ⟨hmajor.trans hmajor', ?_⟩
      rcases h with h | ⟨hminor, h⟩
      · rcases h' with h' | ⟨hminor', -⟩
        · exact .inl (UInt64.lt_trans h h')
        · exact .inl (hminor' ▸ h)
      · rcases h' with h' | ⟨hminor', h'⟩
        · exact .inl (hminor ▸ h')
        · exact .inr ⟨hminor.trans hminor', UInt64.lt_trans h h'⟩

protected theorem lt_irrefl (r : Release) : ¬ r < r := fun h => by
  have hlt := compare_eq_lt_iff.2 h
  rw [compare_eq_eq_iff.2 rfl] at hlt
  cases hlt

end Release

/-! ### Versions -/

namespace Version

/-- The order of two segments of pre-releases. Numbers come before words, and are compared by their
values. -/
def compareSegments (s t : List Char) : Ordering :=
  if s.all Char.isDigit then
    if t.all Char.isDigit then Ord.compare (Decimal.value s) (Decimal.value t) else .lt
  else if t.all Char.isDigit then .gt
  else Ord.compare s t

/-- The order of two pre-releases, of which a missing one is the greatest. -/
def comparePreReleases (p q : String) : Ordering :=
  if p = "" then if q = "" then .eq else .gt
  else if q = "" then .lt
  else List.compareLex compareSegments (segments p.toList) (segments q.toList)

/-- The order of two versions: that of their releases, and for the same release that of their
pre-releases. -/
protected def compare (v w : Version) : Ordering :=
  (v.release.compare w.release).then (comparePreReleases v.preRelease w.preRelease)

/-- A version is below another one. -/
def Precedes (v w : Version) : Prop := v.compare w = .lt

example : Precedes ⟨⟨1, 0, 0⟩, "rc.2", ""⟩ ⟨⟨1, 0, 0⟩, "rc.11", "a1b2"⟩ := rfl

/-- **The comparison of a version with a release is that of the order of versions.** -/
theorem precedes_bare_iff {v : Version} {r : Release} :
    v.Precedes ⟨r, "", ""⟩ ↔ v.IsBelow r := by
  have hpre : comparePreReleases v.preRelease "" = .lt ↔ v.preRelease ≠ "" := by
    rw [comparePreReleases]
    by_cases hempty : v.preRelease = ""
    · simp [hempty]
    · simp [hempty]
  rw [Precedes, Version.compare, Ordering.then_eq_lt, hpre, Release.compare_eq_lt_iff,
    Release.compare_eq_eq_iff, IsBelow]

/-- What is below a release is below those above it. -/
theorem IsBelow.trans_lt {v : Version} {r s : Release} (h : v.IsBelow r) (h' : r < s) :
    v.IsBelow s := by
  rcases h with h | ⟨heq, -⟩
  · exact .inl (Release.lt_trans h h')
  · exact .inl (heq ▸ h')

theorem not_isBelow_bare (r : Release) : ¬ IsBelow ⟨r, "", ""⟩ r := by
  rintro (h | ⟨-, h⟩)
  · exact Release.lt_irrefl r h
  · exact h rfl

/-- Bare releases are in the order of their numbers. -/
theorem bare_precedes_bare_iff {r s : Release} :
    Precedes ⟨r, "", ""⟩ ⟨s, "", ""⟩ ↔ r < s := by
  rw [precedes_bare_iff, IsBelow]
  simp

end Version

end Chainlets
