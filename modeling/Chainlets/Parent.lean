import Chainlets.Channel
import Chainlets.Chainlet
import Chainlets.Coin
import Chainlets.Packet.Basic

/-!
# The parent chain

The subsystems of the parent chain that the module uses but does not own. Their state is of a type
that the module knows nothing about; each call takes that state and returns the next one. What a
call did stays done, even if the execution that made it fails.

## Main definitions

* `Parent` — the calls.
* `ConsumerPhase`, `ValidatorChange` — what the validator-set subsystem deals in.
-/

namespace Chainlets

/-- The phase in the life of a consumer. -/
inductive ConsumerPhase where
  | registered
  | initialized
  | launched
  | stopped
  | deleted
deriving DecidableEq, Repr

/-- The name of a phase. -/
def ConsumerPhase.name : ConsumerPhase → String
  | .registered => "Registered"
  | .initialized => "Initialized"
  | .launched => "Launched"
  | .stopped => "Stopped"
  | .deleted => "Deleted"

/-- A change to the validator set of a consumer, by its number and the new powers of validators. -/
structure ValidatorChange where
  /-- The number of the change. -/
  id : UInt64
  /-- The validators that change, and their powers. -/
  powers : List (Bytes × UInt64)
deriving DecidableEq, Repr

/-- A change that leaves all validators as they are. It hands a new consumer the current set. -/
def ValidatorChange.empty (id : UInt64) : ValidatorChange := ⟨id, []⟩

/-- The result of a call that may fail for a reason of its own, and the state after it. -/
abbrev Called (ω α : Type) := Except String α × ω

/-- The subsystems of the parent chain, over a state of some type. -/
structure Parent (ω : Type) where
  /-- Whether an address is an admin. -/
  isAdmin : (address : String) → ω → Bool
  /-- Whether an address may create and update stacks while they are protected. -/
  mayManageStacks : (address : String) → ω → Bool
  /-- Open the escrow account of a chainlet with a deposit. -/
  openEscrow : (payer chainId : String) → (deposit : Coin) → ω → Called ω Unit
  /-- Charge an amount for a chainlet. -/
  bill : (amount : Coin) → (chainlet : Chainlet) → (memo : String) → ω → Called ω Unit
  /-- Create the consumer of a chainlet. -/
  createConsumer : (chainId : String) → (spawnTime : Time) → (unbonding : Duration) → ω →
    Called ω ConsumerId
  /-- The number of the next change to the validator set. -/
  validatorSetId : ω → UInt64
  /-- Use the number of the next change up. -/
  advanceValidatorSetId : ω → ω
  /-- Queue a change for a consumer. -/
  queueChange : ConsumerId → ValidatorChange → ω → ω
  /-- The light client that tracks a consumer. -/
  consumerClient? : ConsumerId → ω → Option String
  /-- The channel over which a consumer gets its changes. -/
  consumerChannel? : ConsumerId → ω → Option String
  /-- The phase of a consumer. -/
  consumerPhase : ConsumerId → ω → ConsumerPhase
  /-- Send a consumer all its queued changes. -/
  sendChanges : ConsumerId → (channel : String) → ω → Called ω Unit
  /-- What is known of channels, connections and light clients. -/
  routes : ω → Routes
  /-- Send a packet. -/
  sendPacket : (port channel : String) → (timeoutHeight : Height) → (timeoutTime : Time) →
    (data : Bytes) → ω → Called ω Sequence
  /-- Other work of the host at the beginning of a block, if it has any. -/
  housekeeping? : Option (Height → Time → ω → Called ω Unit)

end Chainlets
