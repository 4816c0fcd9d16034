import Chainlets.Operation.Launch

/-!
# The beginning of a block

Every so many blocks, chainlets that opted into it are moved to the newest version of their stack
that they can run without a breaking upgrade. Then consumers that are ready are sent their first
validators, and last the host does other work of its own.

Automatic upgrades are decided for all chainlets first, and then made one by one. Chainlets with a
breaking upgrade pending are left out. That one move fails does not keep the others from being
made, except when the version tree names a version that the stack does not have enabled: then the
tree is out of step with the stacks, and the host has to stop.

## Main definitions

* `Operation.autoUpgrade`, `Operation.beginBlock`.
-/

namespace Chainlets.Operation

open Execution

variable {ω : Type}

/-- The version that a chainlet is to be moved to, if it takes part and there is one. -/
def autoTarget (t : VersionTree) (chainlet : Chainlet) : Execution ω (Option String) :=
  if !chainlet.autoUpgrade || chainlet.upgrade?.isSome then return none
  else
    match t.latestCompatible chainlet.stack chainlet.version with
    | .ok latest => return if latest = chainlet.version then none else some latest
    | .error cause => do
      log (.upgradeSkipped chainlet.chainId cause)
      return none

/-- The chainlets that are to be moved, and the versions they are to be moved to. -/
def autoTargets (t : VersionTree) : List Chainlet → Execution ω (List (Chainlet × String))
  | [] => return []
  | chainlet :: rest => do
    let target? ← autoTarget t chainlet
    let more ← autoTargets t rest
    return match target? with
      | some target => (chainlet, target) :: more
      | none => more

/-- Move a chainlet to a version. Whether that worked is returned. -/
def moveTo (chainlet : Chainlet) (target : String) : Execution ω Bool := do
  let stack? ← stack? chainlet.stack
  match stack?.bind fun stack => stack.enabled? target with
  | none => fail (.treeOutOfSync chainlet.stack target)
  | some version =>
    let result ← outcome <| atomic do
      let chainlet ← registerForVersion chainlet version
      applyVersion chainlet target true
    match result with
    | .ok () => return true
    | .error failure =>
      log (.upgradeFailed chainlet.chainId target failure)
      return false

/-- Make moves one by one. The number of those that worked is returned. -/
def moveAll : List (Chainlet × String) → Execution ω Nat
  | [] => return 0
  | (chainlet, target) :: rest => do
    let moved ← moveTo chainlet target
    let more ← moveAll rest
    return if moved then more + 1 else more

/-- Move every chainlet that takes part to the newest version that it can run without a breaking
upgrade. The number of chainlets that were moved is returned. -/
def autoUpgrade : Execution ω Nat := do
  let chainlets ← Readable.allChainlets (← view)
  let t ← tree
  let planned ← autoTargets t chainlets
  moveAll planned

/-- What is done at the beginning of a block. -/
def beginBlock : Execution ω Unit := do
  let params ← params
  let height := (← context).height
  if params.automaticUpgrades && height.isMultipleOf params.automaticUpgradeInterval then
    let _ ← autoUpgrade
  initConsumers
  let time := (← context).time
  call fun parent world =>
    match parent.housekeeping? with
    | some housekeeping => housekeeping height time world
    | none => (.ok (), world)

end Chainlets.Operation
