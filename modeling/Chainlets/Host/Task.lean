import Chainlets.Controller
import Chainlets.Host.World
import Chainlets.Query

/-!
# Tasks

What a host can do in a context: requests to the controller, parts of the module on their own,
writes of single state variables, reads, and groups of these of which all or nothing is kept.

## Main definitions

* `Host.Task` and `Host.Reply` — what is done, and what it comes to.
* `Host.Bench` — what tasks work on, with `Host.Task.run`.
-/

namespace Chainlets.Host

/-! ### Packets by reference -/

/-- A packet that is given by its fields, or by its place among those that were sent and the fields
in which it differs. -/
structure PacketSpec where
  /-- The place among the packets that were sent, counted from the end if it is negative. -/
  sent? : Option Int
  sequence? : Option Sequence
  sourcePort? : Option String
  sourceChannel? : Option String
  destinationPort? : Option String
  destinationChannel? : Option String
  data? : Option Bytes
  timeoutHeight? : Option Height
  timeoutTime? : Option Time
deriving DecidableEq, Repr, Inhabited

/-- The element of a list at a place that counts from the end if it is negative. -/
def atPlace {α : Type} (items : List α) (place : Int) : Option α :=
  match place with
  | .ofNat n => items[n]?
  | .negSucc n => items.reverse[n]?

/-- The packet that the other end of a channel got when one was sent. -/
def SentPacket.delivered (p : SentPacket) : Packet :=
  ⟨p.sequence, p.port, p.channel, Channel.port, "channel-0", p.data, p.timeoutHeight,
    p.timeoutTime⟩

namespace PacketSpec

/-- A packet with the fields in which it differs. -/
def override (spec : PacketSpec) (base : Packet) : Packet where
  sequence := spec.sequence?.getD base.sequence
  sourcePort := spec.sourcePort?.getD base.sourcePort
  sourceChannel := spec.sourceChannel?.getD base.sourceChannel
  destinationPort := spec.destinationPort?.getD base.destinationPort
  destinationChannel := spec.destinationChannel?.getD base.destinationChannel
  data := spec.data?.getD base.data
  timeoutHeight := spec.timeoutHeight?.getD base.timeoutHeight
  timeoutTime := spec.timeoutTime?.getD base.timeoutTime

/-- The packet that is meant, given the packets that were sent. -/
def resolve? (spec : PacketSpec) (sent : List SentPacket) : Option Packet :=
  match spec.sent? with
  | none => some (spec.override default)
  | some place => (atPlace sent place).map fun p => spec.override p.delivered

end PacketSpec

/-! ### Tasks and replies -/

/-- A read of the state. -/
inductive Read where
  | chainlet (chainId : String)
  | stack (name : String)
  | chainletPage (page : PageRequest)
  | stackPage (page : PageRequest)
  | chainletCount
  | params
  | availability (stack version : String)
  | pendingInit (chainId : String)
  | pendingInits
  | genesis
  /-- Load the tree of the spare cache. -/
  | loadTree
  /-- Rebuild the version tree without keeping it. -/
  | rebuildTree
  /-- Ask the tree of the spare cache for the newest compatible version. -/
  | latestCompatible (stack current : String)
deriving DecidableEq, Repr

/-- Something that is done in a context. -/
inductive Task where
  | handle (msg : Message)
  | importGenesis (genesis : Genesis)
  | setStatus (chainId : String) (status : Status)
  | receive (packet : PacketSpec)
  | acknowledged (packet : PacketSpec) (answer : Bytes)
  | timedOut (packet : PacketSpec)
  | beginBlock
  /-- Check and confirm an upgrade without a packet, and without undoing what fails. -/
  | confirm (msg : Confirmation)
  /-- Upgrade automatically, by the tree of the spare cache. -/
  | autoUpgrade
  | registerConsumer (chainId : String) (spawnTime : Time) (unbonding : Duration)
  | initConsumers
  | putStack (stack : Stack)
  | putChainlet (chainlet : Chainlet)
  | putParams (params : Params)
  | putChainletCount (count : UInt64)
  | putPendingInit (chainId : String) (consumer : ConsumerId)
  | dropPendingInit (chainId : String)
  | read (what : Read)
  /-- Look at the context itself. -/
  | peek
  /-- Something that could not be understood. -/
  | malformed
  /-- Do tasks one after the other, and undo them all if the group is to be given up. -/
  | group (tasks : List Task) (abandon : Bool)

/-- What a task comes to. -/
inductive Reply where
  | done
  | malformed
  | noSuchPacket
  | failed (failure : Failure)
  | unreadable (fault : StorageFault)
  | flag (b : Bool)
  | count (n : Nat)
  | word (n : UInt64)
  | text (s : String)
  | outcome (outcome : Outcome)
  | answer (ack : Acknowledgement)
  | consumer (id : ConsumerId)
  | chainlet (chainlet? : Option Chainlet)
  | stack (stack? : Option Stack)
  | chainletPage (page : Page Chainlet)
  | stackPage (page : Page Stack)
  | params (params : Params)
  | availability (availability : Availability)
  | pendingInit (consumer? : Option ConsumerId)
  | pendingInits (pending : List (String × ConsumerId))
  | genesis (genesis : Genesis)
  | tree (t : VersionTree)
  | context (context : Context)
  | group (replies : List Reply) (result : Except Failure Unit)

namespace Reply

/-- The reply to something that may fail. -/
def ofExcept {α : Type} (f : α → Reply) : Except Failure α → Reply
  | .ok a => f a
  | .error failure => .failed failure

/-- The reply to a read that may fail. -/
def ofRead {α : Type} (f : α → Reply) : Except StorageFault α → Reply
  | .ok a => f a
  | .error fault => .unreadable fault

/-- The reply to a request that may fail. -/
def ofResponse : Except Failure Response → Reply
  | .ok .done => .done
  | .ok (.statusChanged b) => .flag b
  | .ok (.outcome o) => .outcome o
  | .ok (.answer a) => .answer a
  | .error failure => .failed failure

end Reply

/-! ### Running tasks -/

/-- What tasks work on. -/
structure Bench where
  /-- What the controller's operations can change. -/
  live : Live World
  /-- A cache of the version tree besides the controller's. -/
  spare : TreeCache

namespace Read

/-- Read something from the committed state or from a context. The spare cache and the log are the
only things that a read changes. -/
def run {κ : Type} [Readable κ] (r : κ) (spare : TreeCache) :
    Read → Reply × TreeCache × List LogEntry
  | .chainlet chainId => (.ofRead .chainlet (Readable.chainlet? r chainId), spare, [])
  | .stack name => (.ofRead .stack (Readable.stack? r name), spare, [])
  | .chainletPage page => (.ofRead .chainletPage (Query.chainletPage r page), spare, [])
  | .stackPage page => (.ofRead .stackPage (Query.stackPage r page), spare, [])
  | .chainletCount => (.ofRead .word (Readable.chainletCount r), spare, [])
  | .params => (.ofRead .params (Readable.params r), spare, [])
  | .availability name version =>
    (.ofRead .availability (Readable.availability r name version), spare, [])
  | .pendingInit chainId => (.ofRead .pendingInit (Readable.pendingInit? r chainId), spare, [])
  | .pendingInits => (.ofRead .pendingInits (Readable.pendingInits r), spare, [])
  | .genesis => (.ofExcept .genesis ((Genesis.ofState r).mapError .storage), spare, [])
  | .loadTree =>
    match spare.load r with
    | .error failure => (.failed failure, spare, [])
    | .ok (t, after) => (.tree t, after, if spare.isLoaded then [] else [.treeRebuilt])
  | .rebuildTree =>
    match VersionTree.rebuild r with
    | .error failure => (.failed failure, spare, [])
    | .ok t => (.tree t, spare, [.treeRebuilt])
  | .latestCompatible name current =>
    match Controller.latestCompatible r name current spare with
    | (result, after, log) => (.ofExcept .text result, after, log)

end Read

namespace Bench

/-- Have the controller do something. -/
def perform (store : Store) (parent : Parent World) (request : Request) (bench : Bench) :
    Reply × Bench :=
  match Controller.perform store parent request bench.live with
  | (result, live) => (.ofResponse result, { bench with live })

/-- Have the controller do something about a packet, if there is one. -/
def performOn (store : Store) (parent : Parent World) (packet : PacketSpec)
    (request : Packet → Request) (bench : Bench) : Reply × Bench :=
  match packet.resolve? bench.live.world.sent with
  | none => (.noSuchPacket, bench)
  | some packet => bench.perform store parent (request packet)

/-- Run an execution on its own. -/
def runBare {α : Type} (store : Store) (parent : Parent World) (x : Execution World α)
    (reply : α → Reply) (bench : Bench) : Reply × Bench :=
  match Controller.runBare store parent x bench.live with
  | (result, live) => (.ofExcept reply result, { bench with live })

/-- Run an execution on its own, with the spare cache in place of the controller's. -/
def runSpare {α : Type} (store : Store) (parent : Parent World) (x : Execution World α)
    (reply : α → Reply) (bench : Bench) : Reply × Bench :=
  match Controller.runBare store parent x { bench.live with cache := bench.spare } with
  | (result, live) =>
    (.ofExcept reply result, { bench with live := { live with cache := bench.live.cache } })

/-- Read something in the context. -/
def read (store : Store) (what : Read) (bench : Bench) : Reply × Bench :=
  match what.run (Overlay.mk store bench.live.context.updates) bench.spare with
  | (reply, spare, log) =>
    (reply, { bench with live := { bench.live with log := bench.live.log ++ log }, spare })

/-- Undo what was done in the context since a checkpoint. -/
def rollback (checkpoint : Context) (bench : Bench) : Bench :=
  { bench with live := { bench.live with context := checkpoint.rollback bench.live.context } }

end Bench

mutual

/-- Do a task. -/
def Task.run (store : Store) (parent : Parent World) : Task → Bench → Reply × Bench
  | .handle msg, bench => bench.perform store parent (.handle msg)
  | .importGenesis genesis, bench => bench.perform store parent (.importGenesis genesis)
  | .setStatus chainId status, bench => bench.perform store parent (.setStatus chainId status)
  | .receive packet, bench => bench.performOn store parent packet .receive
  | .acknowledged packet answer, bench =>
    bench.performOn store parent packet fun packet => .acknowledged packet answer
  | .timedOut packet, bench => bench.performOn store parent packet .timedOut
  | .beginBlock, bench => bench.perform store parent .beginBlock
  | .confirm msg, bench =>
    bench.runBare store parent
      (do Execution.ofExcept msg.check; Operation.confirmUpgrade msg) .outcome
  | .autoUpgrade, bench => bench.runSpare store parent Operation.autoUpgrade .count
  | .registerConsumer chainId spawnTime unbonding, bench =>
    bench.runBare store parent (Operation.registerConsumer chainId spawnTime unbonding) .consumer
  | .initConsumers, bench => bench.runBare store parent Operation.initConsumers fun _ => .done
  | .putStack stack, bench =>
    bench.runBare store parent (Execution.putStack stack) fun _ => .done
  | .putChainlet chainlet, bench =>
    bench.runBare store parent (Execution.putChainlet chainlet) fun _ => .done
  | .putParams params, bench =>
    bench.runBare store parent (Execution.putParams params) fun _ => .done
  | .putChainletCount count, bench =>
    bench.runBare store parent (Execution.putChainletCount count) fun _ => .done
  | .putPendingInit chainId consumer, bench =>
    bench.runBare store parent (Execution.putPendingInit chainId consumer) fun _ => .done
  | .dropPendingInit chainId, bench =>
    bench.runBare store parent (Execution.drop (.pendingInit chainId)) fun _ => .done
  | .read what, bench => bench.read store what
  | .peek, bench => (.context bench.live.context, bench)
  | .malformed, bench => (.malformed, bench)
  | .group tasks abandon, bench =>
    match Task.runAll store parent tasks bench with
    | (replies, after) =>
      if abandon then
        (.group replies (.error (.invalid .abandoned)), after.rollback bench.live.context)
      else (.group replies (.ok ()), after)

/-- Do tasks one after the other. -/
def Task.runAll (store : Store) (parent : Parent World) :
    List Task → Bench → List Reply × Bench
  | [], bench => ([], bench)
  | task :: rest, bench =>
    match task.run store parent bench with
    | (reply, bench) =>
      match Task.runAll store parent rest bench with
      | (replies, bench) => (reply :: replies, bench)

end

end Chainlets.Host
