import Chainlets.Context
import Chainlets.Log
import Chainlets.Parent

/-!
# Executions

An execution reads the committed store through a context, buffers its writes in the context, and
calls the parent chain. It either returns a value or fails; in both cases the state of the parent
chain and the log are what the execution left. `Execution.atomic` undoes what a failed part did to
the context, and only that.

## Main definitions

* `Execution` — the monad, over a parent chain's state type.
* `Execution.atomic` — a part whose writes are discarded if it fails.
* `Execution.view`, `Execution.put`, `Execution.drop`, `Execution.emit` — reads, writes, events.
* `Execution.tree`, `Execution.changeTree` — the version tree.
* `Execution.ask`, `Execution.call`, `Execution.attempt`, `Execution.order` — calls of the parent
  chain.

## Main results

* `Execution.run_atomic_of_error` — what a failed part leaves: the context rolled back, and the
  parent chain and the log as they are.
-/

namespace Chainlets

/-- What an execution can read but not change. -/
structure Surroundings (ω : Type) where
  /-- The committed state. -/
  store : Store
  /-- The subsystems of the parent chain. -/
  parent : Parent ω
  /-- The cached version tree. -/
  cache : TreeCache

/-- What an execution changes. -/
structure Machine (ω : Type) where
  /-- The context in which it runs. -/
  context : Context
  /-- The state of the parent chain. -/
  world : ω
  /-- What was logged, in order. -/
  log : List LogEntry

/-- A program that reads its surroundings, changes a machine, and returns a value or fails. -/
def Execution (ω α : Type) : Type := Surroundings ω → Machine ω → Except Failure α × Machine ω

namespace Execution

variable {ω α β : Type}

/-- Run an execution. -/
def run (x : Execution ω α) (s : Surroundings ω) (m : Machine ω) : Except Failure α × Machine ω :=
  x s m

instance : Monad (Execution ω) where
  pure a := fun _ m => (.ok a, m)
  bind x f := fun s m =>
    match x s m with
    | (.ok a, m') => f a s m'
    | (.error failure, m') => (.error failure, m')

/-- Fail. -/
def fail (failure : Failure) : Execution ω α := fun _ m => (.error failure, m)

/-- The value of a computation, or its failure. -/
def ofExcept (x : Except Failure α) : Execution ω α := fun _ m => (x, m)

@[ext]
theorem ext {x y : Execution ω α} (h : ∀ s m, x.run s m = y.run s m) : x = y := by
  funext s m
  exact h s m

@[simp]
theorem run_pure (a : α) (s : Surroundings ω) (m : Machine ω) :
    (pure a : Execution ω α).run s m = (.ok a, m) := rfl

@[simp]
theorem run_fail (failure : Failure) (s : Surroundings ω) (m : Machine ω) :
    (fail failure : Execution ω α).run s m = (.error failure, m) := rfl

@[simp]
theorem run_ofExcept (x : Except Failure α) (s : Surroundings ω) (m : Machine ω) :
    (ofExcept x : Execution ω α).run s m = (x, m) := rfl

theorem run_bind (x : Execution ω α) (f : α → Execution ω β) (s : Surroundings ω)
    (m : Machine ω) :
    (x >>= f).run s m =
      match x.run s m with
      | (.ok a, m') => (f a).run s m'
      | (.error failure, m') => (.error failure, m') := rfl

instance : LawfulMonad (Execution ω) :=
  LawfulMonad.mk' _
    (fun x => Execution.ext fun s m => by
      change (match x.run s m with
        | (.ok a, m') => (Except.ok a, m')
        | (.error failure, m') => (.error failure, m')) = x.run s m
      split <;> simp_all)
    (fun _ _ => rfl)
    (fun x f g => Execution.ext fun s m => by
      rw [run_bind, run_bind, run_bind]
      cases x.run s m with
      | mk result m' => cases result <;> rfl)

instance : MonadLift (Except Failure) (Execution ω) := ⟨ofExcept⟩

instance : MonadLift (Except StorageFault) (Execution ω) :=
  ⟨fun x => ofExcept (x.mapError .storage)⟩

instance : MonadLift (Except VersionError) (Execution ω) :=
  ⟨fun x => ofExcept (x.mapError .badVersion)⟩

instance : MonadLift (Except ChannelFault) (Execution ω) :=
  ⟨fun x => ofExcept (x.mapError .channel)⟩

instance : MonadLift (Except BadPacket) (Execution ω) :=
  ⟨fun x => ofExcept (x.mapError .badPacket)⟩

/-! ### Context -/

/-- Run a part. If it fails, its writes and events are discarded, and so is the version tree if the
part changed it. -/
def atomic (x : Execution ω α) : Execution ω α := fun s m =>
  match x s m with
  | (.ok a, m') => (.ok a, m')
  | (.error failure, m') =>
    (.error failure, { m' with context := m.context.rollback m'.context })

/-- Run a part, and hand its failure on as a value. -/
def outcome (x : Execution ω α) : Execution ω (Except Failure α) := fun s m =>
  match x s m with
  | (result, m') => (.ok result, m')

/-- What the execution sees: the committed state under the buffered writes. -/
def view : Execution ω Overlay := fun s m => (.ok ⟨s.store, m.context.updates⟩, m)

/-- The context. -/
def context : Execution ω Context := fun _ m => (.ok m.context, m)

/-- Change the context. -/
def modifyContext (f : Context → Context) : Execution ω Unit := fun _ m =>
  (.ok (), { m with context := f m.context })

/-- Log an entry. -/
def log (entry : LogEntry) : Execution ω Unit := fun _ m =>
  (.ok (), { m with log := m.log ++ [entry] })

@[simp]
theorem run_view (s : Surroundings ω) (m : Machine ω) :
    (view : Execution ω Overlay).run s m = (.ok ⟨s.store, m.context.updates⟩, m) := rfl

@[simp]
theorem run_context (s : Surroundings ω) (m : Machine ω) :
    (context : Execution ω Context).run s m = (.ok m.context, m) := rfl

@[simp]
theorem run_modifyContext (f : Context → Context) (s : Surroundings ω) (m : Machine ω) :
    (modifyContext f : Execution ω Unit).run s m =
      (.ok (), { m with context := f m.context }) := rfl

@[simp]
theorem run_log (entry : LogEntry) (s : Surroundings ω) (m : Machine ω) :
    (log entry : Execution ω Unit).run s m = (.ok (), { m with log := m.log ++ [entry] }) := rfl

/-- A part that fails leaves the buffered writes and the events as they were, and leaves the parent
chain and the log as the part left them. -/
theorem run_atomic_of_error {x : Execution ω α} {s : Surroundings ω} {m m' : Machine ω}
    {failure : Failure} (h : x.run s m = (.error failure, m')) :
    x.atomic.run s m =
      (.error failure, { m' with context := m.context.rollback m'.context }) := by
  change (match x.run s m with
    | (.ok a, m') => (Except.ok a, m')
    | (.error failure, m') => (.error failure, _)) = _
  rw [h]

/-- A part that succeeds is not affected. -/
theorem run_atomic_of_ok {x : Execution ω α} {s : Surroundings ω} {m m' : Machine ω} {a : α}
    (h : x.run s m = (.ok a, m')) : x.atomic.run s m = (.ok a, m') := by
  change (match x.run s m with
    | (.ok a, m') => (Except.ok a, m')
    | (.error failure, m') => (.error failure, _)) = _
  rw [h]

/-- Record an event. -/
def emit (event : Event) : Execution ω Unit :=
  modifyContext fun c => { c with events := c.events ++ [event] }

/-- Write a value to a place. A value that is too long to be stored is refused. -/
def put [Stored.Format α] (entry : Entry) (a : α) : Execution ω Unit :=
  if Stored.fits a then
    modifyContext fun c => { c with updates := c.updates.insert entry.key (Stored.encode a) }
  else fail (.storage (.unencodable entry))

/-- Delete the value at a place. -/
def drop (entry : Entry) : Execution ω Unit :=
  modifyContext fun c => { c with updates := c.updates.delete entry.key }

/-! ### State variables -/

/-- Write a stack under its name. -/
def putStack (stack : Stack) : Execution ω Unit := put (.stack stack.name) stack

/-- Write a chainlet under its chain id. -/
def putChainlet (chainlet : Chainlet) : Execution ω Unit :=
  put (.chainlet chainlet.chainId) chainlet

/-- Write the number of chainlets. -/
def putChainletCount (count : UInt64) : Execution ω Unit := put .chainletCount count

/-- Write the parameters. -/
def putParams (params : Params) : Execution ω Unit := put .params params

/-- Mark a chainlet as one that waits for its first validators. -/
def putPendingInit (chainId : String) (consumer : ConsumerId) : Execution ω Unit :=
  put (.pendingInit chainId) consumer

/-- The parameters. -/
def params : Execution ω Params := do Readable.params (← view)

/-- The stack with a name, if there is one. -/
def stack? (name : String) : Execution ω (Option Stack) := do Readable.stack? (← view) name

/-- The stack with a name. -/
def stack (name : String) : Execution ω Stack := do
  match ← stack? name with
  | some stack => return stack
  | none => fail (.notFound (.stack name))

/-- The chainlet with a chain id, if there is one. -/
def chainlet? (chainId : String) : Execution ω (Option Chainlet) := do
  Readable.chainlet? (← view) chainId

/-- The chainlet with a chain id. -/
def chainlet (chainId : String) : Execution ω Chainlet := do
  match ← chainlet? chainId with
  | some chainlet => return chainlet
  | none => fail (.notFound (.chainlet chainId))

/-- A version of the stack with a name, which has to be one that can be launched and upgraded to. -/
def enabledVersion (name : String) (stack : Stack) (version : String) :
    Execution ω StackVersion :=
  match stack.enabled? version with
  | some v => return v
  | none => fail (.versionUnavailable name version (stack.availability version))

/-! ### Version tree -/

/-- Load the version tree, unless it is loaded. -/
def loadTree : Execution ω Unit := fun s m =>
  if m.context.tree.tree?.isSome then (.ok (), m)
  else
    match m.context.tree.load s.cache (Overlay.mk s.store m.context.updates) with
    | .error failure => (.error failure, m)
    | .ok staged =>
      let rebuilt := if staged.base?.isNone then [.treeRebuilt] else []
      (.ok (), { m with context := { m.context with tree := staged }, log := m.log ++ rebuilt })

/-- The version tree as the execution sees it. -/
def tree : Execution ω VersionTree := do
  loadTree
  return (← context).tree.tree?.getD ∅

/-- Change the version tree along with a write of a stack. -/
def changeTree (f : VersionTree → Except VersionError VersionTree) : Execution ω Unit := do
  let t ← tree
  modifyContext fun c => { c with tree := c.tree.handOut }
  let t ← (f t : Except VersionError VersionTree)
  modifyContext fun c => { c with tree := { c.tree with tree? := some t } }

/-- Drop the version tree. Its next use rebuilds it. -/
def discardTree : Execution ω Unit :=
  modifyContext fun c => { c with tree := c.tree.discard }

/-! ### The parent chain -/

/-- Ask the parent chain something that changes nothing. -/
def ask (question : Parent ω → ω → α) : Execution ω α := fun s m =>
  (.ok (question s.parent m.world), m)

/-- Have the parent chain do something that cannot fail. -/
def order (command : Parent ω → ω → ω) : Execution ω Unit := fun s m =>
  (.ok (), { m with world := command s.parent m.world })

/-- Have the parent chain do something, and hand its failure on as a value. -/
def attempt (command : Parent ω → ω → Called ω α) : Execution ω (Except String α) := fun s m =>
  match command s.parent m.world with
  | (result, world) => (.ok result, { m with world })

@[simp]
theorem run_ask (question : Parent ω → ω → α) (s : Surroundings ω) (m : Machine ω) :
    (ask question).run s m = (.ok (question s.parent m.world), m) := rfl

@[simp]
theorem run_order (command : Parent ω → ω → ω) (s : Surroundings ω) (m : Machine ω) :
    (order command).run s m = (.ok (), { m with world := command s.parent m.world }) := rfl

@[simp]
theorem run_attempt (command : Parent ω → ω → Called ω α) (s : Surroundings ω) (m : Machine ω) :
    (attempt command).run s m =
      (.ok (command s.parent m.world).1, { m with world := (command s.parent m.world).2 }) := rfl

/-- Have the parent chain do something, and fail if it fails. -/
def call (command : Parent ω → ω → Called ω α) : Execution ω α := do
  match ← attempt command with
  | .ok a => return a
  | .error reason => fail (.collaborator reason)

end Execution

end Chainlets
