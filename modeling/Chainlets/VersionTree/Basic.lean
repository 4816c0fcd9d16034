import Chainlets.Data.OrderedMap
import Chainlets.Version.Series

/-!
# The version tree

An index of the releases that automatic upgrades may move chainlets to: for every stack, the patch
numbers under every minor number under every major number. Versions with a suffix are never
tracked. A node that loses its last child is removed with it, so the greatest minor number of a
major number always has a patch number under it.

## Main definitions

* `VersionTree`, with `VersionTree.add` and `VersionTree.remove` on version texts.
* `VersionTree.contains`, `VersionTree.versions`, `VersionTree.stackNames` — what is tracked.
* `VersionTree.latestCompatible` — the newest version that a version can move to without a breaking
  upgrade.
-/

namespace Chainlets

/-- The patch numbers under each minor number under each major number. -/
abbrev ReleaseTree := OrderedMap UInt64 (OrderedMap UInt64 (OrderedSet UInt64))

namespace ReleaseTree

/-- The tree with a release in it. -/
def insert (t : ReleaseTree) (r : Release) : ReleaseTree :=
  let minors := (OrderedMap.get? t r.major).getD ∅
  let patches := (minors.get? r.minor).getD ∅
  OrderedMap.insert t r.major (minors.insert r.minor (OrderedSet.add patches r.patch))

/-- A map, or nothing in place of an empty one. -/
def prune {α β : Type} [Ord α] (m : OrderedMap α β) : Option (OrderedMap α β) :=
  if m.isEmpty then none else some m

/-- The tree without a release, and without the nodes that it leaves empty. -/
def erase (t : ReleaseTree) (r : Release) : ReleaseTree :=
  OrderedMap.alter t r.major fun minors? => do
    let minors ← minors?
    prune <| minors.alter r.minor fun patches? => do
      let patches ← patches?
      prune (patches.erase r.patch)

/-- Whether a release is in the tree. -/
def contains (t : ReleaseTree) (r : Release) : Bool :=
  match OrderedMap.get? t r.major with
  | none => false
  | some minors =>
    match minors.get? r.minor with
    | none => false
    | some patches => patches.contains r.patch

/-- The releases of the tree, in ascending order. -/
def releases (t : ReleaseTree) : List Release :=
  t.toList.flatMap fun (major, minors) =>
    minors.toList.flatMap fun (minor, patches) =>
      patches.keys.map fun patch => ⟨major, minor, patch⟩

/-- The newest release in the series of a release. -/
def newest? (t : ReleaseTree) (r : Release) : Option Release := do
  let minors ← OrderedMap.get? t r.major
  let (minor, patches) ←
    if r.major = 0 then (minors.get? r.minor).map fun patches => (r.minor, patches)
    else minors.last?
  let (patch, _) ← patches.last?
  return ⟨r.major, minor, patch⟩

end ReleaseTree

/-- The tracked releases of every stack that has any. -/
structure VersionTree where
  /-- The releases of each stack, by the name of the stack. -/
  byStack : OrderedMap String ReleaseTree
deriving DecidableEq

namespace VersionTree

/-- The tree that tracks nothing. -/
def empty : VersionTree := ⟨∅⟩

instance : EmptyCollection VersionTree := ⟨empty⟩

instance : Inhabited VersionTree := ⟨empty⟩

/-- The tree with a release of a stack in it. -/
def track (t : VersionTree) (stack : String) (r : Release) : VersionTree :=
  ⟨t.byStack.insert stack (((t.byStack.get? stack).getD ∅).insert r)⟩

/-- The tree without a release of a stack. -/
def untrack (t : VersionTree) (stack : String) (r : Release) : VersionTree :=
  ⟨t.byStack.alter stack fun releases? => releases?.bind fun t => ReleaseTree.prune (t.erase r)⟩

/-- The tree with a version of a stack in it. A version with a suffix changes nothing. -/
def add (t : VersionTree) (stack version : String) : Except VersionError VersionTree := do
  let v ← Version.parse version
  return if v.hasSuffix then t else t.track stack v.release

/-- The tree without a version of a stack. A version that is not tracked changes nothing. -/
def remove (t : VersionTree) (stack version : String) : Except VersionError VersionTree := do
  let v ← Version.parse version
  return if v.hasSuffix then t else t.untrack stack v.release

/-- Whether the release of a version of a stack is tracked. -/
def contains (t : VersionTree) (stack version : String) : Bool :=
  match Version.parse version, t.byStack.get? stack with
  | .ok v, some releases => releases.contains v.release
  | _, _ => false

/-- The tracked versions of a stack, in ascending order. -/
def versions (t : VersionTree) (stack : String) : List String :=
  match t.byStack.get? stack with
  | none => []
  | some releases => releases.releases.map Release.render

/-- The names of the stacks with a tracked version, in ascending order. -/
def stackNames (t : VersionTree) : List String := t.byStack.keys

/-- The newest tracked version of a stack in the series of a version, or the version itself if
nothing in its series is above it. -/
def latestCompatible (t : VersionTree) (stack current : String) : Except VersionError String := do
  let v ← Version.parse current
  match (t.byStack.get? stack).bind fun releases => releases.newest? v.release with
  | none => return current
  | some newest => return if v.IsBelow newest then newest.render else current

end VersionTree

end Chainlets
