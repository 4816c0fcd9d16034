import Chainlets.Failure
import Chainlets.VersionTree.Basic

/-!
# The cached version tree

The stacks are the only authority on which versions are enabled; the version tree is derived from
them. A process keeps one tree in a cache. An execution works on a *staged* tree of its own, copied
from the cache or rebuilt from what the execution sees, and the staged tree takes the place of the
cached one only when the writes it belongs to are committed.

Every replacement of the cached tree starts a new *generation*. A tree that was copied from an
older generation is never committed, since it may lack what was committed in between.

## Main definitions

* `VersionTree.rebuild` — the tree of the enabled versions of the stacks.
* `TreeCache`, with `TreeCache.invalidate`, `TreeCache.load` and `TreeCache.commit`.
* `StagedTree`, with `StagedTree.load`, `StagedTree.handOut` and `StagedTree.discard`.
-/

namespace Chainlets

/-! ### Rebuilding -/

namespace VersionTree

/-- The tree with the enabled versions of a stack. -/
def addEnabled (t : VersionTree) (stack : Stack) : Except VersionError VersionTree :=
  stack.enabledVersions.foldlM (fun t v => t.add stack.name v.version) t

/-- The tree of the enabled versions of stacks. -/
def ofStacks (catalog : List Stack) : Except VersionError VersionTree :=
  catalog.foldlM addEnabled ∅

/-- The tree of the enabled versions of the stacks that a reader sees. -/
def rebuild {κ : Type} [Readable κ] (r : κ) : Except Failure VersionTree := do
  let catalog ← (Readable.allStacks r).mapError .storage
  (ofStacks catalog).mapError .badVersion

end VersionTree

/-! ### Staged trees -/

/-- The tree that a process keeps. -/
structure TreeCache where
  /-- The tree, if one is loaded. -/
  tree? : Option VersionTree
  /-- How often the tree was replaced or dropped. -/
  generation : Nat
deriving DecidableEq

/-- The tree that an execution works on. -/
structure StagedTree where
  /-- The tree, if one is loaded. -/
  tree? : Option VersionTree
  /-- The generation of the cache that the tree was copied from, if it was copied. -/
  base? : Option Nat
  /-- Whether what the execution wrote may disagree with a copy of the cached tree. -/
  detached : Bool
  /-- How often the tree was handed out for a change. -/
  changes : Nat
deriving DecidableEq

namespace StagedTree

/-- The tree of an execution that has not used it yet. -/
def unloaded : StagedTree := ⟨none, none, false, 0⟩

instance : Inhabited StagedTree := ⟨unloaded⟩

/-- Load the tree: a copy of the cached tree if there is one and the execution may use it, else the
tree of what the execution sees. -/
def load {κ : Type} [Readable κ] (staged : StagedTree) (cache : TreeCache) (r : κ) :
    Except Failure StagedTree :=
  match cache.tree?, staged.detached with
  | some tree, false =>
    .ok { staged with tree? := some tree, base? := some cache.generation }
  | _, _ => do
    let tree ← VersionTree.rebuild r
    return { staged with tree? := some tree, base? := none }

/-- Hand the tree out for a change. -/
def handOut (staged : StagedTree) : StagedTree := { staged with changes := staged.changes + 1 }

/-- Drop the tree. From then on it is rebuilt from what the execution sees. -/
def discard (staged : StagedTree) : StagedTree :=
  { staged with tree? := none, base? := none, detached := true }

end StagedTree

/-! ### The cache -/

namespace TreeCache

/-- The cache of a process that has just started. -/
def unloaded : TreeCache := ⟨none, 0⟩

instance : Inhabited TreeCache := ⟨unloaded⟩

/-- Whether a tree is loaded. -/
def isLoaded (cache : TreeCache) : Bool := cache.tree?.isSome

/-- Drop the tree. -/
def invalidate (cache : TreeCache) : TreeCache := ⟨none, cache.generation + 1⟩

/-- Put another tree in place. -/
def replace (cache : TreeCache) (tree : VersionTree) : TreeCache :=
  ⟨some tree, cache.generation + 1⟩

/-- The tree, and the cache with it. It is rebuilt from the committed state if none is loaded. -/
def load {κ : Type} [Readable κ] (cache : TreeCache) (committed : κ) :
    Except Failure (VersionTree × TreeCache) :=
  match cache.tree? with
  | some tree => .ok (tree, cache)
  | none => do
    let tree ← VersionTree.rebuild committed
    return (tree, { cache with tree? := some tree })

/-- Whether a staged tree is not a copy of an older generation. -/
def isCurrent (cache : TreeCache) (staged : StagedTree) : Bool :=
  match staged.base? with
  | some base => base = cache.generation
  | none => true

/-- The cache after the writes that a staged tree belongs to have been committed. -/
def commit (cache : TreeCache) (staged : StagedTree) : TreeCache :=
  match staged.tree? with
  | none => if staged.detached then cache.invalidate else cache
  | some tree =>
    if cache.isCurrent staged then
      if staged.changes > 0 || staged.base?.isNone || cache.tree?.isNone then cache.replace tree
      else cache
    else if staged.changes > 0 then cache.invalidate
    else cache

end TreeCache

end Chainlets
