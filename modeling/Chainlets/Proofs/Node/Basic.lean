import Chainlets.Controller

/-!
# Nodes

A node is a host that opens contexts one at a time: the committed store, the cache of its
controller, and the context that is open, if one is. Whatever the host does is an action, and a run
is a list of actions that begins with an empty store and an unloaded cache.

The parent chain is part of the action that uses it. Nothing relates the parent chain of one action
to that of the next, so a statement about all runs is a statement about all answers that the parent
chain could give.

## Main definitions

* `Node`, with `Node.start`.
* `Node.Action`, with `Node.step` and `Node.run`.

## Main results

* `Node.run_induction` — what every action keeps, every run keeps.
-/

namespace Chainlets

/-- A host that opens contexts one at a time. -/
structure Node where
  /-- The committed state. -/
  store : Store
  /-- The cache of the controller. -/
  cache : TreeCache
  /-- The context that is open. -/
  context? : Option Context

namespace Node

/-- What a host does. -/
inductive Action (ω : Type) where
  /-- Open a context, unless one is open. -/
  | openContext (height : Height) (time : Time)
  /-- Do what is asked for in the open context, with a parent chain in some state. -/
  | perform (parent : Parent ω) (world : ω) (request : Request)
  /-- Commit the open context and write its updates. -/
  | commit (logsEvents : Bool) (listener : Controller.Listener)
  /-- Drop the open context. -/
  | drop
  /-- Ask the controller for the newest compatible version. -/
  | latestCompatible (stack current : String)
  /-- Drop the tree of the cache. -/
  | invalidate

/-- A node before its first action. -/
def start : Node := ⟨∅, .unloaded, none⟩

variable {ω : Type}

/-- Do one action. One that needs an open context does nothing without it. -/
def step (n : Node) : Action ω → Node
  | .openContext height time =>
    match n.context? with
    | some _ => n
    | none => { n with context? := some (.fresh height time) }
  | .perform parent world request =>
    match n.context? with
    | none => n
    | some context =>
      let (_, live) := Controller.perform n.store parent request ⟨context, n.cache, world, []⟩
      { n with cache := live.cache, context? := some live.context }
  | .commit logsEvents listener =>
    match n.context? with
    | none => n
    | some context =>
      let committed := Controller.commit logsEvents listener context n.cache
      ⟨n.store.write committed.updates, committed.cache, none⟩
  | .drop => { n with context? := none }
  | .latestCompatible stack current =>
    let (_, cache, _) := Controller.latestCompatible n.store stack current n.cache
    { n with cache }
  | .invalidate => { n with cache := n.cache.invalidate }

/-- What is done in the open context changes the context and the cache. -/
theorem step_perform {n : Node} {context : Context} (h : n.context? = some context)
    (parent : Parent ω) (world : ω) (request : Request) :
    n.step (.perform parent world request) =
      let live := (Controller.perform n.store parent request ⟨context, n.cache, world, []⟩).2
      ⟨n.store, live.cache, some live.context⟩ := by
  rw [step, h]

/-- Do actions one after the other. -/
def run (n : Node) (actions : List (Action ω)) : Node := actions.foldl step n

/-- **What every action keeps, every run keeps.** -/
theorem run_induction {P : Node → Prop} {allowed : Action ω → Prop}
    (hstep : ∀ n action, allowed action → P n → P (n.step action)) {actions : List (Action ω)}
    (hallowed : ∀ action ∈ actions, allowed action) {n : Node} (h : P n) : P (n.run actions) := by
  induction actions generalizing n with
  | nil => exact h
  | cons action actions ih =>
    exact ih (fun a ha => hallowed a (List.mem_cons_of_mem _ ha))
      (hstep n action (hallowed action List.mem_cons_self) h)

end Node

end Chainlets
