import Chainlets.Clock

/-!
# Chainlets

A chainlet is a child chain that was launched on a version of a stack. While a breaking upgrade is
under way it is on the record; there is never more than one.

## Main definitions

* `Chainlet`, with its `Status` and its `PendingUpgrade`.
* `ConsumerId` — how the validator-set subsystem names a chainlet.
-/

namespace Chainlets

/-- Whether the nodes of a chainlet are expected to produce blocks. -/
inductive Status where
  | online
  | offline
deriving DecidableEq, Repr, Inhabited

/-- A breaking upgrade that was scheduled and has not been confirmed. -/
structure PendingUpgrade where
  /-- The version that the chainlet will run. -/
  targetVersion : String
  /-- The height of the chainlet at which it switches. -/
  targetHeight : Height
  /-- The channel over which the upgrade was negotiated. -/
  channel : String
deriving DecidableEq, Repr, Inhabited

/-- The name of a chainlet in the subsystem that lends it validators. -/
structure ConsumerId where
  /-- The name itself. -/
  text : String
deriving DecidableEq, Repr, Inhabited

/-- A child chain. -/
structure Chainlet where
  /-- The chain id, by which chainlets are told apart. -/
  chainId : String
  /-- The name that its launcher gave it. -/
  name : String
  /-- Who launched it. -/
  launcher : String
  /-- Who may upgrade it. -/
  maintainers : List String
  /-- The name of its stack. -/
  stack : String
  /-- The version of the stack that it runs. -/
  version : String
  /-- Whether it is expected to produce blocks. -/
  status : Status
  /-- Whether it takes part in automatic upgrades. -/
  autoUpgrade : Bool
  /-- Whether it consumes the validator set of the parent chain. -/
  isConsumer : Bool
  /-- Its name as a consumer. -/
  consumer? : Option ConsumerId
  /-- When it was launched. -/
  spawnTime : Time
  /-- Whether it is exempt from fees. -/
  isService : Bool
  /-- The breaking upgrade that is under way. -/
  upgrade? : Option PendingUpgrade
deriving DecidableEq, Repr, Inhabited

namespace Chainlet

/-- Whether an address may upgrade the chainlet. -/
def isMaintainer (chainlet : Chainlet) (address : String) : Bool :=
  chainlet.maintainers.contains address

/-- Whether the chainlet is expected to produce blocks. -/
def isOnline (chainlet : Chainlet) : Bool := chainlet.status = .online

end Chainlet

end Chainlets
