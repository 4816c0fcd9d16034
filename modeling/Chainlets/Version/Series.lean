import Chainlets.Version.Parser

/-!
# Release series and breaking upgrades

Two versions can be exchanged without a breaking upgrade exactly when they belong to the same
*series*. The series of a version is its major number, except that every minor number of major
zero is a series of its own: before 1.0 any minor release may break compatibility.

A breaking upgrade has to move to the next series: from 1 to 2, from 0.3 to 0.4, or from any 0.x to
1. Skipping a series and moving back are refused. The *plan name* of an upgrade, such as 1-to-2,
names the two series; packets carry it in place of the version texts.

## Main definitions

* `Series`, `Series.Follows` — a series, and when one comes directly after another.
* `Version.parse` — a version text, or why it is none.
* `Upgrade.kind` — whether a move between two version texts is compatible, breaking or refused.
* `Upgrade.planName` — the plan name of a move.
-/

namespace Chainlets

/-! ### Series -/

/-- Versions that can be exchanged without a breaking upgrade. -/
inductive Series where
  /-- The versions with major number zero and a given minor number. -/
  | zero (minor : UInt64)
  /-- The versions with a given positive major number. -/
  | major (major : UInt64)
deriving DecidableEq, Repr

namespace Series

/-- The series of a release. -/
def ofRelease (r : Release) : Series := if r.major = 0 then .zero r.minor else .major r.major

/-- Whether a series comes directly after another. Nothing comes after the greatest number. -/
def Follows (next previous : Series) : Prop :=
  match previous, next with
  | .zero m, .zero n => m.toNat + 1 = n.toNat
  | .zero _, .major n => n = 1
  | .major m, .major n => m.toNat + 1 = n.toNat
  | .major _, .zero _ => False

instance (next previous : Series) : Decidable (next.Follows previous) := by
  unfold Follows
  split <;> infer_instance

/-- The text of a series. -/
def render : Series → String
  | .zero minor => s!"0.{minor}"
  | .major n => s!"{n}"

/-- The order of series: those of major zero come first, then by number. -/
def compare : Series → Series → Ordering
  | .zero m, .zero n => Ord.compare m n
  | .zero _, .major _ => .lt
  | .major _, .zero _ => .gt
  | .major m, .major n => Ord.compare m n

end Series

/-- The series of a version. -/
def Version.series (v : Version) : Series := .ofRelease v.release

/-! ### Version texts -/

/-- Why a version text, or a move between two of them, is refused. -/
inductive VersionError where
  /-- A text is no version. -/
  | invalid (text : String) (fault : Version.Fault)
  /-- A move neither stays in its series nor goes to the next one. -/
  | unsupportedUpgrade (source target : String)
deriving DecidableEq, Repr

/-- The wording of a refusal. -/
def VersionError.message : VersionError → String
  | .invalid text fault => s!"invalid semantic version {Quoted.text text}: {fault.message}"
  | .unsupportedUpgrade source target =>
    s!"cannot upgrade from {source} to {target}: major upgrades must move to the next major version"

/-- The version that a text stands for. -/
def Version.parse (text : String) : Except VersionError Version :=
  (Version.ofChars text.toList).mapError (.invalid text)

/-! ### Moves between versions -/

namespace Upgrade

/-- What a move between two versions takes. -/
inductive Kind where
  /-- The series stays the same, and the move can be made at once. -/
  | compatible
  /-- The series changes, and the chainlet has to take part. -/
  | breaking
deriving DecidableEq, Repr

/-- What a move between two version texts takes. -/
def kind (old new : String) : Except VersionError Kind := do
  let oldSeries := (← Version.parse old).series
  let newSeries := (← Version.parse new).series
  if newSeries = oldSeries then return .compatible
  else if newSeries.Follows oldSeries then return .breaking
  else throw (.unsupportedUpgrade old new)

/-- The plan name of a move between two version texts. -/
def planName (old new : String) : Except VersionError String := do
  let oldSeries := (← Version.parse old).series
  let newSeries := (← Version.parse new).series
  return s!"{oldSeries.render}-to-{newSeries.render}"

end Upgrade

end Chainlets
