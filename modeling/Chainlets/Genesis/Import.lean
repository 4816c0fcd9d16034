import Chainlets.Genesis.Basic
import Chainlets.Execution
import Chainlets.Message

/-!
# Importing and exporting the state

A genesis state is checked as a whole before any of it is written: names are unique, versions are
versions, no two versions of a stack collide, and every chainlet runs a version that is there. The
marks of consumers that wait for their first validators are not part of it.

## Main definitions

* `Genesis.check` — what has to hold of a genesis state.
* `Operation.importGenesis` — write a genesis state.
* `Genesis.ofState` — the state that a reader sees, as a genesis state.
-/

namespace Chainlets

namespace Genesis

/-- Check that each version of a stack is a version and collides with none before it. -/
def checkVersions (stack : String) (earlier : List StackVersion) :
    List StackVersion → Except Failure Unit
  | [] => .ok ()
  | v :: rest => do
    requireVersion v.version
    if earlier.any fun w => w.CollidesWith v then throw (.invalid (.collision stack v.version))
    checkVersions stack (v :: earlier) rest

/-- Check that the names of stacks differ from each other and from those seen before, and check
their versions. -/
def checkStacks (seen : List String) : List Stack → Except Failure Unit
  | [] => .ok ()
  | stack :: rest => do
    if stack.name ∈ seen then throw (.invalid (.duplicateStack stack.name))
    checkVersions stack.name [] stack.versions
    checkStacks (stack.name :: seen) rest

/-- Whether a chainlet runs a version that is there. -/
def runsKnownVersion (catalog : List Stack) (chainlet : Chainlet) : Bool :=
  match catalog.find? fun stack => stack.name = chainlet.stack with
  | some stack => (stack.version? chainlet.version).isSome
  | none => false

/-- Check that the chain ids of chainlets are well-formed and differ from each other and from those
seen before, and that each chainlet runs a version that is there. -/
def checkChainlets (catalog : List Stack) (seen : List String) :
    List Chainlet → Except Failure Unit
  | [] => .ok ()
  | chainlet :: rest => do
    requireChainId chainlet.chainId
    if chainlet.chainId ∈ seen then throw (.invalid (.duplicateChainlet chainlet.chainId))
    if !runsKnownVersion catalog chainlet then
      throw (.invalid (.unknownVersion chainlet.chainId chainlet.version chainlet.stack))
    checkChainlets catalog (chainlet.chainId :: seen) rest

/-- What has to hold of a genesis state. -/
def check (genesis : Genesis) : Except Failure Unit := do
  checkStacks [] genesis.catalog
  if genesis.params.maxChainlets.toNat < genesis.chainlets.length then
    throw (.invalid (.tooManyChainlets genesis.chainlets.length genesis.params.maxChainlets))
  checkChainlets genesis.catalog [] genesis.chainlets

/-- The state that a reader sees, as a genesis state. -/
def ofState {κ : Type} [Readable κ] (r : κ) : Except StorageFault Genesis := do
  let params ← Readable.params r
  let catalog ← Readable.allStacks r
  let chainlets ← Readable.allChainlets r
  return { params, catalog, chainlets }

end Genesis

namespace Operation

open Execution

/-- Write a genesis state. The version tree is dropped, so that its next use rebuilds it from the
stacks that were written. -/
def importGenesis {ω : Type} (genesis : Genesis) : Execution ω Unit := do
  genesis.check
  putParams genesis.params
  genesis.catalog.forM putStack
  genesis.chainlets.forM putChainlet
  putChainletCount (.ofNat genesis.chainlets.length)
  discardTree
  log (.genesisWritten genesis.catalog.length genesis.chainlets.length)

end Operation

end Chainlets
