import Chainlets.Host.Task

/-!
# Sessions

A session is a host with a store, a clock, a parent chain in memory, one controller, and any number
of contexts that are open at the same time. It is driven by steps. A task that names no context is
done in one of its own, which is committed afterwards even if the task failed; a read that names
none reads the committed state.

## Main definitions

* `Host.Session`, with `Host.Session.start`.
* `Host.Step` and `Host.Answer` — what is done, and what it comes to.
* `Host.Session.step` — one step.
-/

namespace Chainlets.Host

/-- How a controller is set up. -/
structure Settings where
  /-- Whether events are logged. -/
  logsEvents : Bool
  /-- Whether the host does work of its own at the beginning of a block. -/
  housekeeping : Bool
  /-- Whether anyone listens to events. -/
  listener : Controller.Listener
deriving DecidableEq, Repr

/-- A host that is running. -/
structure Session where
  /-- The committed state. -/
  store : Store
  height : Height
  time : Time
  world : World
  settings : Settings
  /-- The controller's cache. -/
  cache : TreeCache
  /-- A cache besides the controller's. -/
  spare : TreeCache
  /-- The contexts that are open, by name. -/
  contexts : OrderedMap String Context
  /-- How many of the packets that were sent have been reported. -/
  reported : Nat

/-- A change of the host that has nothing to do with the module. -/
inductive Adjustment where
  | clock (height : Height) (time? : Option Time)
  | rights (admins stackManagers : List String)
  | setChannel (port channel : String) (channelEnd : ChannelEnd)
  | removeChannel (port channel : String)
  | setConnection (connection client : String)
  | removeConnection (connection : String)
  | setClientHeight (client : String) (height : Height)
  | removeClientHeight (client : String)
  | outages (f : Outages → Outages)
  | setConsumer (id : String) (f : Consumer → Consumer)
  | removeConsumer (id : String)
  | validatorSet (id : UInt64)
  | setEntry (key value : Bytes)
  | removeEntry (key : Bytes)
  /-- Put a new controller over the same store and parent chain. -/
  | restart (settings : Settings)
  /-- Drop the tree of the controller's cache. -/
  | invalidate
  /-- Drop the tree of the spare cache. -/
  | invalidateSpare

/-- Something that is done in a session. -/
inductive Step where
  | adjust (adjustment : Adjustment)
  | openContext (name : String)
  | commit (name : String)
  /-- Write the updates of a context without the controller. -/
  | commitRaw (name : String)
  | dropContext (name : String)
  /-- Do a task in an open context, or in one of its own. -/
  | task (context? : Option String) (task : Task)
  /-- Begin the next block, five seconds later. -/
  | nextBlock
  /-- Read from an open context, or from the committed state. -/
  | read (context? : Option String) (what : Read)
  /-- Ask the controller for the newest compatible version. -/
  | latestCompatible (stack current : String)
  | spareIsLoaded
  /-- The committed state. -/
  | dump
  /-- The packets that were sent and not reported yet. -/
  | sent
  /-- The parent chain. -/
  | parent

/-- What a step comes to. -/
inductive Answer where
  | nothing
  | reply (reply : Reply)
  /-- A context was committed: the reply of the task in it, the events that a listener got, and the
  updates that were written. -/
  | committed (reply? : Option Reply) (events? : Option (List Event)) (updates : Updates)
  | entries (entries : List (Bytes × Bytes))
  | packets (packets : List SentPacket)
  | world (world : World)
  /-- There is no such context. -/
  | noSuchContext

namespace Session

/-- The parent chain's subsystems as the controller is set up to use them. -/
def parent (s : Session) : Parent World := World.parent s.settings.housekeeping

/-- The events that a listener got. -/
def heard (s : Session) (events : List Event) : Option (List Event) :=
  if s.settings.listener = .listening then some events else none

/-- Commit a context through the controller. -/
def commit (s : Session) (context : Context) : Session × Controller.Committed :=
  let committed :=
    Controller.commit s.settings.logsEvents s.settings.listener context s.cache
  ({ s with store := s.store.write committed.updates, cache := committed.cache }, committed)

/-- What the host sees of a commit that is the end of a step. -/
def seen (s : Session) (reply? : Option Reply) (committed : Controller.Committed) : Answer :=
  .committed reply? (s.heard committed.published) committed.updates

/-- Do a task in a context. -/
def run (s : Session) (context : Context) (task : Task) :
    Reply × Context × Session × List LogEntry :=
  let bench : Bench := ⟨⟨context, s.cache, s.world, []⟩, s.spare⟩
  let (reply, bench) := task.run s.store s.parent bench
  (reply, bench.live.context,
    { s with cache := bench.live.cache, world := bench.live.world, spare := bench.spare },
    bench.live.log)

/-- Do a task in a context of its own, and commit that. -/
def runAndCommit (s : Session) (task : Task) : Answer × Session × List LogEntry :=
  let (reply, context, s, log) := s.run (.fresh s.height s.time) task
  let (s, committed) := s.commit context
  (s.seen (some reply) committed, s, log ++ committed.log)

/-- Make a change of the host. -/
def adjust (s : Session) : Adjustment → Session × List LogEntry
  | .clock height time? => ({ s with height, time := time?.getD s.time }, [])
  | .rights admins stackManagers => ({ s with world := { s.world with admins, stackManagers } }, [])
  | .setChannel port channel channelEnd =>
    ({ s with world := s.world.setChannel port channel channelEnd }, [])
  | .removeChannel port channel => ({ s with world := s.world.removeChannel port channel }, [])
  | .setConnection connection client =>
    let connections := s.world.connections.insert connection client
    ({ s with world := { s.world with connections } }, [])
  | .removeConnection connection =>
    ({ s with world := { s.world with connections := s.world.connections.erase connection } }, [])
  | .setClientHeight client height =>
    ({ s with world := { s.world with heights := s.world.heights.insert client height } }, [])
  | .removeClientHeight client =>
    ({ s with world := { s.world with heights := s.world.heights.erase client } }, [])
  | .outages f => ({ s with world := { s.world with outages := f s.world.outages } }, [])
  | .setConsumer id f =>
    let consumer := f ((s.world.consumers.get? id).getD .blank)
    ({ s with world := { s.world with consumers := s.world.consumers.insert id consumer } }, [])
  | .removeConsumer id =>
    ({ s with world := { s.world with consumers := s.world.consumers.erase id } }, [])
  | .validatorSet id => ({ s with world := { s.world with validatorSetId := id } }, [])
  | .setEntry key value => ({ s with store := s.store.set key value }, [])
  | .removeEntry key => ({ s with store := s.store.delete key }, [])
  | .restart settings => ({ s with cache := .unloaded, settings }, [])
  | .invalidate => ({ s with cache := s.cache.invalidate }, s.cache.changeLog s.cache.invalidate)
  | .invalidateSpare =>
    ({ s with spare := s.spare.invalidate }, s.spare.changeLog s.spare.invalidate)

/-- Do one step. -/
def step (s : Session) : Step → Answer × Session × List LogEntry
  | .adjust adjustment =>
    let (s, log) := s.adjust adjustment
    (.nothing, s, log)
  | .openContext name =>
    (.nothing, { s with contexts := s.contexts.insert name (.fresh s.height s.time) }, [])
  | .commit name =>
    match s.contexts.get? name with
    | none => (.noSuchContext, s, [])
    | some context =>
      let (s, committed) := { s with contexts := s.contexts.erase name }.commit context
      (s.seen none committed, s, committed.log)
  | .commitRaw name =>
    match s.contexts.get? name with
    | none => (.noSuchContext, s, [])
    | some context =>
      (.committed none (some context.events) context.updates,
        { s with contexts := s.contexts.erase name, store := s.store.write context.updates }, [])
  | .dropContext name => (.nothing, { s with contexts := s.contexts.erase name }, [])
  | .task none task => s.runAndCommit task
  | .task (some name) task =>
    match s.contexts.get? name with
    | none => (.noSuchContext, s, [])
    | some context =>
      let (reply, context, s, log) := s.run context task
      (.reply reply, { s with contexts := s.contexts.insert name context }, log)
  | .nextBlock =>
    { s with height := s.height.add 1, time := s.time.add (.ofSecs 5) }.runAndCommit .beginBlock
  | .read none what =>
    let (reply, spare, log) := what.run s.store s.spare
    (.reply reply, { s with spare }, log)
  | .read (some name) what =>
    match s.contexts.get? name with
    | none => (.noSuchContext, s, [])
    | some context =>
      let (reply, spare, log) := what.run (Overlay.mk s.store context.updates) s.spare
      (.reply reply, { s with spare }, log)
  | .latestCompatible stack current =>
    let (result, cache, log) := Controller.latestCompatible s.store stack current s.cache
    (.reply (.ofExcept .text result), { s with cache }, log)
  | .spareIsLoaded => (.reply (.flag s.spare.isLoaded), s, [])
  | .dump => (.entries s.store.entries.toList, s, [])
  | .sent =>
    (.packets (s.world.sent.drop s.reported), { s with reported := s.world.sent.length }, [])
  | .parent => (.world s.world, s, [])

/-- A host before its first block, with nothing in its store. -/
def blank (settings : Settings) : Session :=
  ⟨∅, ⟨1⟩, .ofSecs 1700000000, .initial, settings, .unloaded, .unloaded, ∅, 0⟩

/-- A host whose state begins with parameters, if there are any. -/
def start (settings : Settings) (params? : Option Params) : Session :=
  match params? with
  | none => blank settings
  | some params =>
    ((blank settings).runAndCommit (.importGenesis ⟨params, [], []⟩)).2.1

end Session

end Chainlets.Host
