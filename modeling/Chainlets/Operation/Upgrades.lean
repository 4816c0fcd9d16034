import Chainlets.Operation.Launch
import Chainlets.Packet.Wire

/-!
# Asking for upgrades

A maintainer moves a chainlet to another version of its stack. Within the series the move is made
at once. A move to the next series is a breaking upgrade: a packet goes to the chainlet, and the
upgrade is pending until the chainlet confirms or rejects it, or the packet times out. A maintainer
can also ask for the pending upgrade to be given up.

## Main definitions

* `Operation.requestUpgrade`, `Operation.cancelUpgrade`.
* `Operation.consumerClient` — the light client that a channel to a chainlet has to lead to.
-/

namespace Chainlets.Operation

open Execution

variable {ω : Type}

/-- Require an address to be a maintainer of a chainlet. -/
def requireMaintainer (chainlet : Chainlet) (address : String) : Execution ω Unit :=
  if chainlet.isMaintainer address then return
  else fail (.unauthorized (.maintain address chainlet.chainId))

/-- The light client that tracks a chainlet. -/
def consumerClient (chainlet : Chainlet) : Execution ω String := do
  let client? ← ask fun parent world =>
    chainlet.consumer?.bind fun consumer => parent.consumerClient? consumer world
  match client? with
  | some client => return client
  | none => fail (.consumerNotRegistered chainlet.chainId)

/-- A step of the handshake, whose refusals are failures about a chainlet. -/
def step {α : Type} (chainId : String) (x : Except Handshake.Refusal α) : Execution ω α :=
  match x with
  | .ok a => return a
  | .error .alreadyPending => fail (.upgradeAlreadyPending chainId)
  | .error .notPending => fail (.noPendingUpgrade chainId)
  | .error (.badVersion cause) => fail (.badVersion cause)

/-- Require a channel to be open and to lead to a chainlet's light client, and return the greatest
height that the client has seen. -/
def openRoute (channel client : String) : Execution ω Height := do
  let routes ← ask Parent.routes
  let _ ← Channel.leadOpen routes Channel.port channel client
  Channel.latestHeight routes client

/-- Send the content of a packet to a chainlet whose height is known. -/
def send (params : Params) (latest : Height) (channel : String) (data : PacketData) :
    Execution ω (Sequence × Commitment) := do
  let bytes := data.encode
  let time := (← context).time
  let sequence ← call fun parent =>
    parent.sendPacket Channel.port channel (latest.add params.timeoutHeightDelta)
      (time.add params.timeout) bytes
  return (sequence, .of bytes)

/-- Move a chainlet to another version of its stack, or ask it to take part in a breaking
upgrade. -/
def requestUpgrade (msg : RequestUpgrade) : Execution ω Unit := do
  let params ← params
  let chainlet ← chainlet msg.chainId
  requireMaintainer chainlet msg.creator
  if chainlet.upgrade?.isSome then fail (.upgradeAlreadyPending chainlet.chainId)
  let stack ← stack chainlet.stack
  let target ← enabledVersion chainlet.stack stack msg.version
  if target.version = chainlet.version then
    fail (.invalid (.sameVersion chainlet.chainId target.version))
  let kind ← Upgrade.kind chainlet.version target.version
  if kind = .breaking ∧ !chainlet.isConsumer ∧ !target.isConsumer then
    fail (.breakingUpgradeRequiresConsumer chainlet.chainId)
  let chainlet ← registerForVersion chainlet target
  match kind with
  | .compatible => applyVersion chainlet target.version false
  | .breaking =>
    let client ← consumerClient chainlet
    let latest ← openRoute msg.channel client
    let targetHeight := latest.add (Word.add params.minUpgradeHeightDelta msg.heightDelta)
    let planName ← Upgrade.planName chainlet.version target.version
    let upgrade : PendingUpgrade := ⟨target.version, targetHeight, msg.channel⟩
    let upgrade? ← step chainlet.chainId (Handshake.request chainlet.upgrade? upgrade)
    let (sequence, commitment) ← send params latest msg.channel
      (.create chainlet.chainId planName targetHeight.number target.image)
    putChainlet { chainlet with upgrade? }
    emit (.scheduleUpgrade chainlet.chainId planName target.version targetHeight msg.channel
      sequence commitment)

/-- Ask a chainlet to give its pending upgrade up. The upgrade stays pending until it agrees. -/
def cancelUpgrade (msg : CancelUpgrade) : Execution ω Unit := do
  let params ← params
  let chainlet ← chainlet msg.chainId
  requireMaintainer chainlet msg.creator
  let upgrade ← step chainlet.chainId (Handshake.cancelRequest chainlet.upgrade?)
  let client ← consumerClient chainlet
  let latest ← openRoute upgrade.channel client
  let planName ← Upgrade.planName chainlet.version upgrade.targetVersion
  let (sequence, commitment) ← send params latest upgrade.channel
    (.cancel chainlet.chainId planName)
  emit (.requestCancelUpgrade chainlet.chainId planName upgrade.channel sequence commitment)

end Chainlets.Operation
