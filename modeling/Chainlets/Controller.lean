import Chainlets.Genesis.Import
import Chainlets.Operation.BeginBlock
import Chainlets.Operation.Callbacks
import Chainlets.Operation.Stacks

/-!
# The controller

The entry point of the module. A controller keeps the cached version tree of a process and runs
operations in contexts. An operation either succeeds and leaves its writes, events and changes of
the version tree in the context, or fails and leaves the context as it found it. Nothing leaves a
context until it is committed.

A failure of integrity means that the version tree disagrees with the stacks; it drops the tree of
the context and the cached one.

## Main definitions

* `Live` — what an operation can change: the context, the cache, the parent chain and the log.
* `Controller.execute` — run an execution as one operation.
* `Operation` — the operations, with `Controller.perform`.
* `Controller.commit` — commit a context and publish its events.
-/

namespace Chainlets

/-- What an operation can change. -/
structure Live (ω : Type) where
  /-- The context in which it runs. -/
  context : Context
  /-- The cached version tree. -/
  cache : TreeCache
  /-- The state of the parent chain. -/
  world : ω
  /-- What was logged, in order. -/
  log : List LogEntry

/-- Entries for the log when one cache takes the place of another. -/
def TreeCache.changeLog (before after : TreeCache) : List LogEntry :=
  if before.isLoaded && !after.isLoaded then [.treeInvalidated] else []

namespace Controller

variable {ω α : Type}

/-- Run an execution on its own, without the care that an operation takes of failures. -/
def runBare (store : Store) (parent : Parent ω) (x : Execution ω α) (live : Live ω) :
    Except Failure α × Live ω :=
  match x.run ⟨store, parent, live.cache⟩ ⟨live.context, live.world, live.log⟩ with
  | (result, m) =>
    (result, { live with context := m.context, world := m.world, log := m.log })

/-- What a failed operation does besides undoing its writes. -/
def settle (failure : Failure) (live : Live ω) : Live ω :=
  let live :=
    if failure.isFatal then
      { live with
        context := { live.context with tree := live.context.tree.discard }
        cache := live.cache.invalidate
        log := live.log ++ live.cache.changeLog live.cache.invalidate }
    else live
  { live with log := live.log ++ [.rolledBack failure] }

/-- Run an execution as one operation. -/
def execute (store : Store) (parent : Parent ω) (x : Execution ω α) (live : Live ω) :
    Except Failure α × Live ω :=
  match runBare store parent x.atomic live with
  | (.ok a, live) => (.ok a, live)
  | (.error failure, live) => (.error failure, settle failure live)

end Controller

/-! ### Operations -/

namespace Operation

open Execution

/-- What a message does. -/
def ofMessage {ω : Type} : Message → Execution ω Unit
  | .createStack msg => createStack msg
  | .addVersion msg => addVersion msg
  | .disableVersion msg => disableVersion msg
  | .launch msg => launch msg
  | .requestUpgrade msg => requestUpgrade msg
  | .cancelUpgrade msg => cancelUpgrade msg

end Operation

/-- Something that the host asks of the module. -/
inductive Request where
  /-- Write a genesis state. -/
  | importGenesis (genesis : Genesis)
  /-- Do what a user asks for. -/
  | handle (msg : Message)
  /-- Take a chainlet online or offline. -/
  | setStatus (chainId : String) (status : Status)
  /-- A packet arrived. -/
  | receive (packet : Packet)
  /-- A packet that was sent was answered. -/
  | acknowledged (packet : Packet) (answer : Bytes)
  /-- A packet that was sent timed out. -/
  | timedOut (packet : Packet)
  /-- A block begins. -/
  | beginBlock
deriving DecidableEq

/-- What a request comes to. -/
inductive Response where
  | done
  /-- Whether the status changed. -/
  | statusChanged (changed : Bool)
  /-- What a callback did. -/
  | outcome (outcome : Outcome)
  /-- The answer to a packet that arrived. -/
  | answer (ack : Acknowledgement)
deriving DecidableEq, Repr

namespace Controller

variable {ω : Type}

/-- Handle a message. One that fails its own check does not reach the state. -/
def handle (store : Store) (parent : Parent ω) (msg : Message) (live : Live ω) :
    Except Failure Unit × Live ω :=
  match msg.check with
  | .error failure => (.error failure, live)
  | .ok () => execute store parent (Operation.ofMessage msg) live

/-- Handle a packet that arrived. One that fails is answered with an error, and one that is ignored
with a success. -/
def receive (store : Store) (parent : Parent ω) (packet : Packet) (live : Live ω) :
    Acknowledgement × Live ω :=
  match execute store parent (Operation.receive packet) live with
  | (.ok _, live) => (.success EmptyPayload.mk, live)
  | (.error failure, live) =>
    let entry := .packetRejected packet.sequence packet.destinationChannel failure
    (.error failure.message, { live with log := live.log ++ [entry] })

/-- Do what the host asks for. -/
def perform (store : Store) (parent : Parent ω) (request : Request) (live : Live ω) :
    Except Failure Response × Live ω :=
  match request with
  | .importGenesis genesis =>
    execute store parent (do Operation.importGenesis genesis; return .done) live
  | .handle msg =>
    let (result, live) := handle store parent msg live
    (result.map fun _ => .done, live)
  | .setStatus chainId status =>
    execute store parent (.statusChanged <$> Operation.setStatus chainId status) live
  | .receive packet =>
    let (ack, live) := receive store parent packet live
    (.ok (.answer ack), live)
  | .acknowledged packet answer =>
    execute store parent (.outcome <$> Operation.acknowledged packet answer) live
  | .timedOut packet => execute store parent (.outcome <$> Operation.timedOut packet) live
  | .beginBlock => execute store parent (do Operation.beginBlock; return .done) live

/-! ### Committing -/

/-- Whether anyone listens to events. -/
inductive Listener where
  /-- Nobody ever did. -/
  | none
  /-- Somebody does. -/
  | listening
  /-- Somebody did, and has gone. -/
  | gone
deriving DecidableEq, Repr

/-- What is logged when events are committed. -/
def eventLog (logsEvents : Bool) (listener : Listener) (events : List Event) : List LogEntry :=
  events.flatMap fun event =>
    (if logsEvents then [.event event] else []) ++
      (if listener = .gone then [.noListener] else [])

/-- What a context comes to when it is committed. -/
structure Committed where
  /-- The updates, which the host writes into the store. -/
  updates : Updates
  /-- The events that are published, in order. -/
  published : List Event
  /-- The cache afterwards. -/
  cache : TreeCache
  /-- What is logged. -/
  log : List LogEntry

/-- Commit a context: its updates are handed to the host, its events are published in the order in
which they were recorded, and its version tree goes to the cache. -/
def commit (logsEvents : Bool) (listener : Listener) (context : Context) (cache : TreeCache) :
    Committed :=
  let after := cache.commit context.tree
  { updates := context.updates
    published := context.events
    cache := after
    log := cache.changeLog after ++ eventLog logsEvents listener context.events }

/-- The newest version that a version of a stack can move to without a breaking upgrade, as the
cached tree has it, with the cache after the question and what it logs. -/
def latestCompatible {κ : Type} [Readable κ] (committed : κ) (stack current : String)
    (cache : TreeCache) : Except Failure String × TreeCache × List LogEntry :=
  match cache.load committed with
  | .error failure => (.error failure, cache, [])
  | .ok (t, after) =>
    ((t.latestCompatible stack current).mapError .badVersion, after,
      if cache.isLoaded then [] else [.treeRebuilt])

end Controller

end Chainlets
