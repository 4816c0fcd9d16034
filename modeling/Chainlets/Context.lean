import Chainlets.Event
import Chainlets.VersionTree.Cache

/-!
# Contexts

A context is one block's, or one transaction's, view of the state: the writes that are buffered,
the events that go with them, and the version tree as the writes leave it. It is opened at a height
and a time, and is committed or dropped as a whole.

## Main definitions

* `Context`, with `Context.fresh`.
* `Context.rollback` — the context after a part of an execution has failed.
-/

namespace Chainlets

/-- A view of the state with writes that are not committed yet. -/
structure Context where
  /-- The buffered writes. -/
  updates : Updates
  /-- The height of the block. -/
  height : Height
  /-- The time of the block. -/
  time : Time
  /-- The events that go with the writes, in the order in which they happened. -/
  events : List Event
  /-- The version tree. -/
  tree : StagedTree
deriving DecidableEq, Inhabited

namespace Context

/-- A context without writes. -/
def fresh (height : Height) (time : Time) : Context := ⟨∅, height, time, [], .unloaded⟩

/-- The context after a part of an execution has failed that began at a checkpoint. Writes and
events are those of the checkpoint. If the version tree was changed in between, it is dropped,
since it may hold changes whose writes are gone. -/
def rollback (checkpoint failed : Context) : Context :=
  { checkpoint with
    tree :=
      if failed.tree.changes = checkpoint.tree.changes then failed.tree else failed.tree.discard }

end Context

end Chainlets
