/-!
# Versions

A semantic version is a *release*, three numbers, with an optional pre-release identifier and
optional build metadata. Only bare releases are ever chosen automatically, so the one comparison
the module needs is that of a version with a release.

## Main definitions

* `Release`, with its order and `Release.render`.
* `Version`, with `Version.hasSuffix` and `Version.render`.
* `Version.IsBelow` — the semantic-version order between a version and a release.
-/

namespace Chainlets

/-- The three numbers of a version. -/
structure Release where
  /-- Raised by breaking changes, once it is positive. -/
  major : UInt64
  /-- Raised by additions, and by breaking changes while the major number is zero. -/
  minor : UInt64
  /-- Raised by repairs. -/
  patch : UInt64
deriving DecidableEq, Repr, Inhabited

namespace Release

/-- A release is below another in the first number in which they differ. -/
protected def Lt (r s : Release) : Prop :=
  r.major < s.major ∨
    r.major = s.major ∧ (r.minor < s.minor ∨ r.minor = s.minor ∧ r.patch < s.patch)

instance : LT Release := ⟨Release.Lt⟩

instance (r s : Release) : Decidable (r < s) :=
  inferInstanceAs (Decidable (_ ∨ _ ∧ (_ ∨ _ ∧ _)))

/-- The three numbers, separated by dots. -/
def render (r : Release) : String := s!"{r.major}.{r.minor}.{r.patch}"

end Release

/-- A semantic version. -/
structure Version where
  /-- Its three numbers. -/
  release : Release
  /-- The pre-release identifier, empty if there is none. -/
  preRelease : String := ""
  /-- The build metadata, empty if there is none. -/
  build : String := ""
deriving DecidableEq, Repr, Inhabited

namespace Version

/-- Whether a version is more than a bare release. Such versions are never chosen automatically. -/
def hasSuffix (v : Version) : Bool := v.preRelease != "" || v.build != ""

/-- The text of a version. -/
def render (v : Version) : String :=
  let pre := if v.preRelease = "" then "" else s!"-{v.preRelease}"
  let build := if v.build = "" then "" else s!"+{v.build}"
  v.release.render ++ pre ++ build

/-- Whether a version is below a release. At equal numbers a pre-release is below the release, and
build metadata puts a version above it. -/
def IsBelow (v : Version) (r : Release) : Prop :=
  v.release < r ∨ v.release = r ∧ v.preRelease ≠ ""

instance (v : Version) (r : Release) : Decidable (v.IsBelow r) :=
  inferInstanceAs (Decidable (_ ∨ _ ∧ _))

end Version

end Chainlets
