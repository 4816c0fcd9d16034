import Chainlets.Operation.Upgrades

/-!
# Packets that arrive

A packet from a chainlet, an answer to a packet that was sent, or its timeout. Each is trusted only
after the walk from its channel has ended at the light client of the chainlet that the packet
names; while an upgrade is pending, the channel has to be the one over which it was negotiated.
Then the handshake says what happens.

## Main definitions

* `Operation.receive`, `Operation.acknowledged`, `Operation.timedOut`.
* `Operation.confirmUpgrade` — what a received confirmation does.
* `Operation.verifiedChainlet` — the chainlet that a packet names, once its channel is trusted.
-/

namespace Chainlets

/-- What a callback did. -/
inductive Outcome where
  /-- It was about the pending upgrade. -/
  | handled
  /-- It was about another upgrade, and nothing changed. -/
  | ignored (reason : IgnoreReason)
deriving DecidableEq, Repr

namespace Operation

open Execution

variable {ω : Type}

/-- The chainlet with a chain id, once a channel is known to lead to it. -/
def verifiedChainlet (chainId port channel : String) : Execution ω Chainlet := do
  let chainlet ← chainlet chainId
  let client ← consumerClient chainlet
  let routes ← ask Parent.routes
  let _ ← Channel.lead routes port channel client
  match chainlet.upgrade? with
  | none => return chainlet
  | some upgrade =>
    Channel.requireRecorded upgrade.channel channel
    return chainlet

/-- Carry a transition of the handshake out. -/
def carryOut (chainlet : Chainlet) (plan : String) (height : Height) :
    Handshake.Transition → Execution ω Outcome
  | .stay => return .handled
  | .ignore reason => do
    log (.packetIgnored chainlet.chainId reason)
    emit (.ignorePacket chainlet.chainId plan reason)
    return .ignored reason
  | .cancel upgrade reason => do
    putChainlet { chainlet with upgrade? := none }
    emit (.cancelUpgrade chainlet.chainId upgrade.targetVersion reason)
    return .handled
  | .complete upgrade => do
    putChainlet { chainlet with version := upgrade.targetVersion, upgrade? := none }
    emit (.completeUpgrade chainlet.chainId upgrade.targetVersion height)
    return .handled

/-- What a chainlet's confirmation does. -/
def confirmUpgrade (msg : Confirmation) : Execution ω Outcome := do
  let chainlet ← verifiedChainlet msg.chainId msg.port msg.channel
  let transition ← step chainlet.chainId
    (Handshake.confirmed chainlet.upgrade? chainlet.version msg.plan)
  carryOut chainlet msg.plan ⟨msg.height⟩ transition

/-- A packet arrived on the module's port. Chainlets send nothing but confirmations. -/
def receive (packet : Packet) : Execution ω Outcome := do
  match ← (PacketData.decode packet.data : Except BadPacket PacketData) with
  | .confirm chainId height plan =>
    let msg : Confirmation :=
      ⟨chainId, height, plan, packet.destinationPort, packet.destinationChannel⟩
    msg.check
    confirmUpgrade msg
  | other => fail (.badPacket (.notConfirmation other.chainId))

/-- A packet that was sent was answered. -/
def acknowledged (packet : Packet) (answer : Bytes) : Execution ω Outcome := do
  let data ← (PacketData.decode packet.data : Except BadPacket PacketData)
  let ack ← (Acknowledgement.decode answer : Except BadPacket Acknowledgement)
  let chainlet ← verifiedChainlet data.chainId packet.sourcePort packet.sourceChannel
  let height := (← context).height
  match data with
  | .create _ plan _ _ =>
    let transition ← step chainlet.chainId <|
      Handshake.createAcknowledged chainlet.upgrade? chainlet.version plan ack.isSuccess
    carryOut chainlet plan height transition
  | .cancel _ plan =>
    let transition ← step chainlet.chainId <|
      Handshake.cancelAcknowledged chainlet.upgrade? chainlet.version plan ack.isSuccess
    carryOut chainlet plan height transition
  | .confirm .. => fail (.badPacket .acknowledgedConfirmation)

/-- A packet that was sent timed out. -/
def timedOut (packet : Packet) : Execution ω Outcome := do
  let data ← (PacketData.decode packet.data : Except BadPacket PacketData)
  let chainlet ← verifiedChainlet data.chainId packet.sourcePort packet.sourceChannel
  let height := (← context).height
  match data with
  | .create _ plan _ _ =>
    let transition ← step chainlet.chainId <|
      Handshake.createTimedOut chainlet.upgrade? chainlet.version plan
    carryOut chainlet plan height transition
  | .cancel _ plan =>
    let transition ← step chainlet.chainId <|
      Handshake.cancelTimedOut chainlet.upgrade? chainlet.version plan
    carryOut chainlet plan height transition
  | .confirm .. => fail (.badPacket .timedOutConfirmation)

end Operation

end Chainlets
