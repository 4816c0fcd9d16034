import Chainlets.Proofs.Coherence.Commit
import Chainlets.Proofs.Node.Basic

/-!
# The version tree of a node

The version tree is derived from the stacks, and is kept at two places: in the cache, beside the
committed stacks, and in the open context, beside those that the context sees. Neither is written
together with the stacks it belongs to. This module shows that on a node, which opens contexts one
at a time, both are always the tree that a rebuild would give.

The invariant is that the stacks are in order, that both trees are in step with theirs, and that the
flags of the staged tree account for what the context wrote. The last is what makes committing
sound: a cache that is left alone belongs to a context that wrote no stack.

## Main definitions

* `Node.Coherent` — every tree of a node is the rebuilt one.
* `Node.Steady` — the invariant.

## Main results

* `Node.Steady.step` — every action keeps the invariant.
* `Node.coherent_run` — **every run leaves a node coherent.**
-/

namespace Chainlets

namespace Node

/-! ### Coherence -/

/-- Every version tree of a node is the rebuilt one. -/
structure Coherent (n : Node) : Prop where
  /-- The cached tree is that of the committed stacks. -/
  cached : ∀ t, n.cache.tree? = some t → VersionTree.rebuild n.store = .ok t
  /-- The staged tree is that of the stacks that the context sees. -/
  staged : ∀ context, n.context? = some context → ∀ t, context.tree.tree? = some t →
    VersionTree.rebuild (Overlay.mk n.store context.updates) = .ok t
  /-- The next use of the tree succeeds, and sees that of the stacks that the context sees. -/
  next : ∀ context, n.context? = some context → ∃ t,
    VersionTree.rebuild (Overlay.mk n.store context.updates) = .ok t ∧
      ∀ {ω : Type} (parent : Parent ω) (world : ω) (log : List LogEntry),
        (Execution.tree.run ⟨n.store, parent, n.cache⟩ ⟨context, world, log⟩).1 = .ok t
  /-- The controller answers questions as the tree of the committed stacks does. -/
  answers : ∃ t, VersionTree.rebuild n.store = .ok t ∧ ∀ stack current,
    (Controller.latestCompatible n.store stack current n.cache).1 =
      (t.latestCompatible stack current).mapError .badVersion

/-- The stacks are in order, the trees are in step with them, and the flags of the staged tree are
right. -/
structure Steady (n : Node) : Prop where
  stocked : Stocked n.store
  cached : n.cache.InStep n.store
  stocking : ∀ context, n.context? = some context → context.updates.Stocking
  accounted : ∀ context, n.context? = some context → context.Accounted n.cache
  staged : ∀ context, n.context? = some context → context.InStep n.store

/-- A steady node is coherent. -/
theorem Steady.coherent {n : Node} (h : n.Steady) : n.Coherent where
  cached := h.cached
  staged := h.staged
  next context hcontext := by
    obtain ⟨t, ht⟩ := (h.stocking context hcontext n.store h.stocked).rebuild_ok
    refine ⟨t, ht, fun parent world log => ?_⟩
    rw [Execution.run_tree, ← ht]
    exact (h.accounted context hcontext).nextTree_eq h.cached (h.staged context hcontext)
  answers := by
    obtain ⟨t, ht⟩ := h.stocked.rebuild_ok
    exact ⟨t, ht, h.cached.answer ht⟩

theorem steady_start : start.Steady where
  stocked := stocked_empty
  cached t ht := by cases ht
  stocking context hcontext := by cases hcontext
  accounted context hcontext := by cases hcontext
  staged context hcontext := by cases hcontext

/-- A node without an open context is steady when its store and cache are. -/
theorem Steady.closed {store : Store} {cache : TreeCache} (hstore : Stocked store)
    (hcache : cache.InStep store) : (Node.mk store cache none).Steady where
  stocked := hstore
  cached := hcache
  stocking context hcontext := by cases hcontext
  accounted context hcontext := by cases hcontext
  staged context hcontext := by cases hcontext

/-- A node with an open context. -/
theorem Steady.opened {store : Store} {cache : TreeCache} {context : Context}
    (hstore : Stocked store) (hcache : cache.InStep store) (hstocking : context.updates.Stocking)
    (haccounted : context.Accounted cache) (hstaged : context.InStep store) :
    (Node.mk store cache (some context)).Steady where
  stocked := hstore
  cached := hcache
  stocking := by rintro _ ⟨⟩; exact hstocking
  accounted := by rintro _ ⟨⟩; exact haccounted
  staged := by rintro _ ⟨⟩; exact hstaged

/-- A cache that is in step may take the place of one of the same or an older generation. -/
theorem Steady.recached {n : Node} (h : n.Steady) {cache : TreeCache}
    (hcache : cache.InStep n.store) (hle : n.cache.generation ≤ cache.generation) :
    { n with cache }.Steady :=
  { h with
    cached := hcache
    accounted := fun context hcontext => (h.accounted context hcontext).mono hle }

variable {ω : Type}

/-- **Every action keeps a node steady.** -/
theorem Steady.step {n : Node} (h : n.Steady) (action : Action ω) : (n.step action).Steady := by
  obtain ⟨store, cache, context?⟩ := n
  cases action with
  | openContext height time =>
    cases context? with
    | some context => exact h
    | none =>
      exact .opened h.stocked h.cached stocking_empty (Context.accounted_fresh cache height time)
        (Context.inStep_fresh store height time)
  | perform parent world request =>
    cases context? with
    | none => exact h
    | some context =>
      have heffect := Controller.perform_effect store parent request ⟨context, cache, world, []⟩
      have hstocking := h.stocking context rfl
      have haccounted := h.accounted context rfl
      exact .opened h.stocked (heffect.cache_inStep h.cached)
        (heffect.stocking h.stocked hstocking) (heffect.accounted haccounted)
        (heffect.inStep h.stocked hstocking haccounted h.cached (h.staged context rfl))
  | commit logsEvents listener =>
    cases context? with
    | none => exact h
    | some context =>
      exact .closed ((h.stocking context rfl).write h.stocked)
        (TreeCache.commit_inStep h.cached (h.accounted context rfl)
          fun _ => h.staged context rfl)
  | drop => exact .closed h.stocked h.cached
  | latestCompatible stack current =>
    exact h.recached (h.cached.latestCompatible stack current)
      (Nat.le_of_eq (Controller.latestCompatible_generation ..).symm)
  | invalidate => exact h.recached (TreeCache.inStep_invalidate _ _) (Nat.le_succ _)

theorem Steady.run {n : Node} (h : n.Steady) (actions : List (Action ω)) :
    (n.run actions).Steady :=
  run_induction (P := Steady) (fun _ action (_ : True) h => h.step action) (fun _ _ => trivial) h

/-- **Every run leaves a node coherent**: the cached tree, the staged tree, and the tree that the
open context would use next are those of a rebuild, and so is every answer of the controller. -/
theorem coherent_run (actions : List (Action ω)) : (start.run actions).Coherent :=
  (steady_start.run actions).coherent

end Node

end Chainlets
