import Chainlets.Packet.Basic
import Chainlets.Upgrade.Handshake

/-!
# Events

What an execution did, told to whoever listens once it is committed. Events are kept with the
buffered writes while an execution runs, and are discarded with them if it fails.

## Main definitions

* `Event`.
-/

namespace Chainlets

/-- Something that an execution did. -/
inductive Event where
  /-- A stack was created. -/
  | createStack (stack creator : String)
  /-- A version was added to a stack. -/
  | addStackVersion (stack version : String) (isConsumer : Bool)
  /-- A version of a stack was disabled. -/
  | disableStackVersion (stack version : String)
  /-- A chainlet was launched. A service chainlet has no denomination that it was paid for in. -/
  | launchChainlet (chainId stack version launcher : String) (feeDenom? : Option String)
  /-- A chainlet was taken offline. -/
  | stopChainlet (chainId : String)
  /-- A chainlet was brought online. -/
  | startChainlet (chainId : String)
  /-- A chainlet was moved to another version of its series. -/
  | upgradeChainlet (chainId source target : String) (automatic : Bool)
  /-- A packet that schedules a breaking upgrade was sent, and the upgrade is pending. -/
  | scheduleUpgrade (chainId planName targetVersion : String) (targetHeight : Height)
      (channel : String) (sequence : Sequence) (commitment : Commitment)
  /-- A chainlet confirmed its pending upgrade and runs the target version. -/
  | completeUpgrade (chainId version : String) (height : Height)
  /-- A pending upgrade was given up. -/
  | cancelUpgrade (chainId targetVersion : String) (reason : CancelReason)
  /-- A packet that cancels a pending upgrade was sent. -/
  | requestCancelUpgrade (chainId planName channel : String) (sequence : Sequence)
      (commitment : Commitment)
  /-- A callback was ignored, because it is not about the pending upgrade. -/
  | ignorePacket (chainId planName : String) (reason : IgnoreReason)
  /-- A chainlet was registered as a consumer. -/
  | registerConsumer (chainId : String) (consumer : ConsumerId)
  /-- A consumer was sent its first validators. -/
  | initConsumer (chainId : String) (consumer : ConsumerId) (channel : String)
deriving DecidableEq, Repr

end Chainlets
