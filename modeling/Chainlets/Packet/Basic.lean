import Chainlets.Clock
import Chainlets.Data.Sha256

/-!
# Packets

What the parent chain and a chainlet send each other about a breaking upgrade, and how a receiver
answers. The parent sends creations and cancellations; a chainlet sends confirmations.

## Main definitions

* `PacketData` — the content of a packet.
* `Packet` — a packet as the transport delivers it.
* `Acknowledgement` — the answer to a packet.
* `Commitment` — the digest by which a packet that was sent is known.
-/

namespace Chainlets

/-- The content of a packet. -/
inductive PacketData where
  /-- Schedule an upgrade of a chainlet at one of its heights. -/
  | create (chainId planName : String) (height : UInt64) (info : String)
  /-- Give up an upgrade of a chainlet. -/
  | cancel (chainId plan : String)
  /-- The chainlet has reached the height right before an upgrade. -/
  | confirm (chainId : String) (height : UInt64) (plan : String)
deriving DecidableEq, Repr, Inhabited

/-- The chainlet that a packet is about. -/
def PacketData.chainId : PacketData → String
  | .create chainId .. => chainId
  | .cancel chainId _ => chainId
  | .confirm chainId .. => chainId

/-- The number that the transport gives a packet. -/
structure Sequence where
  /-- The number itself. -/
  number : UInt64
deriving DecidableEq, Repr, Inhabited

/-- A packet as the transport delivers it. -/
structure Packet where
  sequence : Sequence
  sourcePort : String
  sourceChannel : String
  destinationPort : String
  destinationChannel : String
  data : Bytes
  timeoutHeight : Height
  timeoutTime : Time
deriving DecidableEq, Repr, Inhabited

/-- The answer to a packet. -/
inductive Acknowledgement where
  /-- The packet was handled. The text is the base64 form of a JSON payload. -/
  | result (payload : String)
  /-- The packet was rejected, for a reason. -/
  | error (reason : String)
deriving DecidableEq, Repr, Inhabited

/-- Whether an answer says that the packet was handled. -/
def Acknowledgement.isSuccess : Acknowledgement → Bool
  | .result _ => true
  | .error _ => false

/-- The payload of an acknowledgement that has nothing to add. -/
structure EmptyPayload where
deriving DecidableEq, Repr, Inhabited

/-- The digest by which a packet that was sent is known. -/
structure Commitment where
  /-- The bytes of the digest. -/
  bytes : Bytes
deriving DecidableEq, Repr, Inhabited

/-- The commitment to the bytes of a packet. -/
def Commitment.of (data : Bytes) : Commitment := ⟨Sha256.digest data⟩

end Chainlets
