import Chainlets.Clock

/-!
# Parameters

The numbers and switches of the module that governance can set. They are part of the stored state,
so that every validator reads the same ones.

## Main definitions

* `Params`, whose field defaults are the parameters of a chain that sets none.
-/

namespace Chainlets

/-- The governable parameters. -/
structure Params where
  /-- Whether only admins and allowed addresses may create and update stacks. -/
  stackProtections : Bool := true
  /-- How many chainlets may be launched. -/
  maxChainlets : UInt64 := 1000
  /-- Whether chainlets are upgraded automatically. -/
  automaticUpgrades : Bool := true
  /-- The number of blocks between two rounds of automatic upgrades. -/
  automaticUpgradeInterval : UInt64 := 100
  /-- The least number of blocks of a chainlet between an upgrade's scheduling and the upgrade. -/
  minUpgradeHeightDelta : UInt64 := 100
  /-- The number of blocks of a chainlet after which a packet to it times out. -/
  timeoutHeightDelta : UInt64 := 1000
  /-- The number of seconds after which a packet times out. -/
  timeoutSecs : UInt64 := 86400
  /-- The unbonding period of new consumers in seconds. -/
  unbondingSecs : UInt64 := 1814400
  /-- The number of epoch fees that are deposited at a launch. -/
  depositEpochs : UInt64 := 1
deriving DecidableEq, Repr

instance : Inhabited Params := ⟨{}⟩

namespace Params

/-- The time after which a packet times out. -/
def timeout (params : Params) : Duration := .ofSecs params.timeoutSecs

/-- The unbonding period of new consumers. -/
def unbondingPeriod (params : Params) : Duration := .ofSecs params.unbondingSecs

end Params

end Chainlets
