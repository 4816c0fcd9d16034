import Chainlets.Data.OrderedMap
import Chainlets.Parent

/-!
# A parent chain in memory

A parent chain whose subsystems are tables and switches. It serves to rehearse runs of the module:
every subsystem can be told to fail, and everything that is asked of it is on record.

## Main definitions

* `Host.World` — its state.
* `Host.World.parent` — its subsystems.
-/

namespace Chainlets.Host

/-- Which subsystems fail. -/
structure Outages where
  /-- Sending packets. -/
  transport : Bool
  /-- Sending validator changes. -/
  changes : Bool
  /-- Creating consumers. -/
  consumers : Bool
  /-- The host's own work. -/
  housekeeping : Bool
  /-- Escrow deposits in these denominations. -/
  escrow : List String
  /-- Bills in these denominations. -/
  billing : List String
deriving Repr, Inhabited

/-- A transfer that was made. -/
inductive Transfer where
  | escrow (chainId : String) (deposit : Coin) (payer : String)
  | bill (chainId : String) (amount : Coin) (memo : String)
deriving DecidableEq

/-- What is known of a consumer. -/
structure Consumer where
  chainId : String
  spawnTime : Time
  unbonding : Duration
  phase : ConsumerPhase
  client? : Option String
  channel? : Option String
  queued : List ValidatorChange
  sent : List ValidatorChange
deriving DecidableEq, Repr

/-- A consumer of which nothing is known. -/
def Consumer.blank : Consumer := ⟨"", ⟨0⟩, ⟨0⟩, .registered, none, none, [], []⟩

/-- A packet that was sent. -/
structure SentPacket where
  port : String
  channel : String
  sequence : Sequence
  timeoutHeight : Height
  timeoutTime : Time
  data : Bytes
deriving DecidableEq, Repr, Inhabited

/-- The state of a parent chain in memory. -/
structure World where
  admins : List String
  stackManagers : List String
  outages : Outages
  /-- The transfers that were made, in order. -/
  ledger : List Transfer
  consumers : OrderedMap String Consumer
  /-- The number of the next consumer. -/
  nextConsumer : Nat
  validatorSetId : UInt64
  /-- The channel ends, by port and then by channel. -/
  channels : OrderedMap String (OrderedMap String ChannelEnd)
  /-- The light client of each connection. -/
  connections : OrderedMap String String
  /-- The greatest height that each light client has seen. -/
  heights : OrderedMap String Height
  /-- The packets that were sent, in order. -/
  sent : List SentPacket
  /-- When the host did work of its own. -/
  housekeeping : List (Height × Time)

namespace World

/-- A parent chain on which nothing has happened. -/
def initial : World := {
  admins := ["admin"]
  stackManagers := ["manager"]
  outages := default
  ledger := []
  consumers := ∅
  nextConsumer := 0
  validatorSetId := 0
  channels := ∅
  connections := ∅
  heights := ∅
  sent := []
  housekeeping := [] }

instance : Inhabited World := ⟨initial⟩

/-! ### Tables -/

/-- The channel ends with one put in place. -/
def setChannel (w : World) (port channel : String) (channelEnd : ChannelEnd) : World :=
  let ends := (w.channels.get? port).getD ∅
  { w with channels := w.channels.insert port (ends.insert channel channelEnd) }

/-- The channel ends without one. -/
def removeChannel (w : World) (port channel : String) : World :=
  let ends := (w.channels.get? port).getD ∅
  { w with channels := w.channels.insert port (ends.erase channel) }

/-- What is known of channels, connections and light clients. -/
def routes (w : World) : Routes where
  channel? port channel := (w.channels.get? port).bind fun ends => ends.get? channel
  client? connection := w.connections.get? connection
  height? client := w.heights.get? client

/-- Change what is known of a consumer, if it is known. -/
def modifyConsumer (w : World) (id : String) (f : Consumer → Consumer) : World :=
  { w with consumers := w.consumers.alter id fun consumer? => consumer?.map f }

/-! ### Subsystems -/

/-- Make a transfer, unless its denomination is out of order. -/
def transfer (w : World) (broken : List String) (verb : String) (coin : Coin)
    (entry : Transfer) : Called World Unit :=
  if coin.denom ∈ broken then (.error s!"cannot {verb} {coin.render}", w)
  else (.ok (), { w with ledger := w.ledger ++ [entry] })

/-- Create a consumer under the next number. -/
def createConsumer (w : World) (chainId : String) (spawnTime : Time) (unbonding : Duration) :
    Called World ConsumerId :=
  if w.outages.consumers then (.error "consumer limit reached", w)
  else
    let id := s!"{w.nextConsumer}"
    let consumer : Consumer :=
      ⟨chainId, spawnTime, unbonding, .initialized, some s!"07-tendermint-{id}", none, [], []⟩
    (.ok ⟨id⟩,
      { w with consumers := w.consumers.insert id consumer, nextConsumer := w.nextConsumer + 1 })

/-- Send a consumer its queued changes. -/
def sendChanges (w : World) (id : ConsumerId) (channel : String) : Called World Unit :=
  if w.outages.changes then (.error s!"{channel} congested", w)
  else
    match w.consumers.get? id.text with
    | none => (.error "unknown consumer", w)
    | some _ =>
      (.ok (), w.modifyConsumer id.text fun c =>
        { c with queued := [], sent := c.sent ++ c.queued })

/-- Send a packet under the next sequence number. -/
def sendPacket (w : World) (port channel : String) (timeoutHeight : Height) (timeoutTime : Time)
    (data : Bytes) : Called World Sequence :=
  if w.outages.transport then (.error "transport down", w)
  else
    let sequence : Sequence := ⟨.ofNat (w.sent.length + 1)⟩
    (.ok sequence,
      { w with sent := w.sent ++ [⟨port, channel, sequence, timeoutHeight, timeoutTime, data⟩] })

/-- Do the host's own work. -/
def keepHouse (w : World) (height : Height) (time : Time) : Called World Unit :=
  if w.outages.housekeeping then (.error "housekeeping failed", w)
  else (.ok (), { w with housekeeping := w.housekeeping ++ [(height, time)] })

/-- The subsystems of a parent chain in memory, with or without work of the host's own. -/
def parent (housekeeping : Bool) : Parent World where
  isAdmin address w := w.admins.contains address
  mayManageStacks address w := w.stackManagers.contains address
  openEscrow payer chainId deposit w :=
    w.transfer w.outages.escrow "escrow" deposit (.escrow chainId deposit payer)
  bill amount chainlet memo w :=
    w.transfer w.outages.billing "bill" amount (.bill chainlet.chainId amount memo)
  createConsumer chainId spawnTime unbonding w := w.createConsumer chainId spawnTime unbonding
  validatorSetId w := w.validatorSetId
  advanceValidatorSetId w := { w with validatorSetId := w.validatorSetId + 1 }
  queueChange id change w :=
    w.modifyConsumer id.text fun c => { c with queued := c.queued ++ [change] }
  consumerClient? id w := (w.consumers.get? id.text).bind (·.client?)
  consumerChannel? id w := (w.consumers.get? id.text).bind (·.channel?)
  consumerPhase id w := ((w.consumers.get? id.text).map (·.phase)).getD .deleted
  sendChanges id channel w := w.sendChanges id channel
  routes := routes
  sendPacket port channel timeoutHeight timeoutTime data w :=
    w.sendPacket port channel timeoutHeight timeoutTime data
  housekeeping? := if housekeeping then some fun height time w => w.keepHouse height time else none

end World

end Chainlets.Host
