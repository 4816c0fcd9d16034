import Chainlets.Controller
import Chainlets.Proofs.Coherence.Stocks

/-!
# Shared hosts

A shared host opens any number of contexts over one store and one controller, and commits them in
any order. Each commit is followed at once by the write of its updates.

Besides what the host needs, the state records what has happened: how often a commit has changed the
stacks, and how far that count had come when each staged tree was loaded. A tree is *overtaken* when
the stacks have been changed by a commit since. No action depends on these records.

## Main definitions

* `SharedHost`, with `SharedHost.start`.
* `SharedHost.Action`, with `SharedHost.step` and `SharedHost.run`.
* `OpenContext.Overtaken` — the stacks were changed by a commit since the tree was loaded.

## Main results

* `Updates.changesStacks_eq_false_iff` — updates that change no stack show the stacks of the store.
-/

namespace Chainlets

/-! ### Changes of the stacks -/

/-- Whether updates write or delete a stack. -/
def Updates.changesStacks (u : Updates) : Bool :=
  (u.inserts.keys ++ u.deletes.keys).any (Bytes.startsWith [Entry.stackMark])

/-- Updates that change no stack neither write nor delete one. -/
theorem Updates.changesStacks_eq_false_iff_forall {u : Updates} :
    u.changesStacks = false ↔ ∀ k, u.inserts.get? (Entry.stackMark :: k) = none ∧
      u.deletes.contains (Entry.stackMark :: k) = false := by
  simp only [Updates.changesStacks, List.any_eq_false, List.mem_append, OrderedMap.mem_keys_iff]
  constructor
  · intro h k
    have hfront : Bytes.startsWith [Entry.stackMark] (Entry.stackMark :: k) = true :=
      Bytes.startsWith_mark_iff.2 ⟨k, rfl⟩
    constructor
    · rw [← Option.not_isSome_iff_eq_none]
      exact fun hinserts => h _ (.inl hinserts) hfront
    · rw [← Bool.not_eq_true]
      exact fun hdeletes => h _ (.inr hdeletes) hfront
  · rintro h k hk hfront
    obtain ⟨k', rfl⟩ := Bytes.startsWith_mark_iff.1 hfront
    obtain ⟨hinserts, hdeletes⟩ := h k'
    rcases hk with hk | hk
    · rw [OrderedMap.contains, hinserts] at hk
      cases hk
    · rw [hdeletes] at hk
      cases hk

/-- Updates that change no stack are those that show the stacks of every store. -/
theorem Updates.changesStacks_eq_false_iff {u : Updates} :
    u.changesStacks = false ↔ SameStacks ∅ u := by
  rw [changesStacks_eq_false_iff_forall]
  constructor
  · intro h s k
    obtain ⟨hinserts, hdeletes⟩ := h k
    rw [Overlay.get?_of_empty, Overlay.get?_eq]
    simp only [hinserts, hdeletes, Bool.false_eq_true, if_false, Option.none_or]
  · intro h k
    -- A store that has the key tells a deletion from nothing, and one without it an insertion.
    have hdeletes : u.deletes.contains (Entry.stackMark :: k) = false := by
      rw [← Bool.not_eq_true]
      intro hcontains
      have hget := h ((∅ : Store).set (Entry.stackMark :: k) []) k
      rw [Overlay.get?_of_empty, Store.get?_set, if_pos rfl, Overlay.get?_eq] at hget
      simp only [hcontains, if_true] at hget
      cases hget
    refine ⟨?_, hdeletes⟩
    have hget := h ∅ k
    rw [Overlay.get?_eq] at hget
    simp only [hdeletes, Bool.false_eq_true, if_false] at hget
    cases hinserts : u.inserts.get? (Entry.stackMark :: k) with
    | none => rfl
    | some v =>
      rw [hinserts] at hget
      cases hget

/-! ### The host -/

/-- A context that is open, with what is recorded of its tree. -/
structure OpenContext where
  context : Context
  /-- How often the stacks had been changed when the tree was loaded, if it is loaded. -/
  loadedAt? : Option Nat

/-- A host with any number of open contexts. -/
structure SharedHost where
  /-- The committed state. -/
  store : Store
  /-- The cache of the controller. -/
  cache : TreeCache
  /-- How often a commit has changed the stacks. -/
  revision : Nat
  /-- The contexts that are open, by name. -/
  contexts : OrderedMap String OpenContext

namespace SharedHost

/-- What a host does. -/
inductive Action (ω : Type) where
  /-- Open a context. One that is open under the same name is dropped. -/
  | openContext (name : String) (height : Height) (time : Time)
  /-- Do what is asked for in an open context, with a parent chain in some state. -/
  | perform (name : String) (parent : Parent ω) (world : ω) (request : Request)
  /-- Commit an open context and write its updates. -/
  | commit (name : String) (logsEvents : Bool) (listener : Controller.Listener)
  /-- Drop an open context. -/
  | drop (name : String)
  /-- Ask the controller for the newest compatible version. -/
  | latestCompatible (stack current : String)
  /-- Drop the tree of the cache. -/
  | invalidate

/-- A host over a store, with an unloaded cache and no open context. -/
def start (store : Store) : SharedHost := ⟨store, .unloaded, 0, ∅⟩

/-- What is recorded of the tree of a context at some revision, given what was recorded before. -/
def loadedAt? (revision : Nat) (before? : Option Nat) (context : Context) : Option Nat :=
  match context.tree.tree? with
  | none => none
  | some _ => some (before?.getD revision)

variable {ω : Type}

/-- Do one action. One that needs an open context does nothing without it. -/
def step (h : SharedHost) : Action ω → SharedHost
  | .openContext name height time =>
    { h with contexts := h.contexts.insert name ⟨.fresh height time, none⟩ }
  | .perform name parent world request =>
    match h.contexts.get? name with
    | none => h
    | some ⟨context, before?⟩ =>
      let (_, live) := Controller.perform h.store parent request ⟨context, h.cache, world, []⟩
      let after : OpenContext := ⟨live.context, loadedAt? h.revision before? live.context⟩
      { h with cache := live.cache, contexts := h.contexts.insert name after }
  | .commit name logsEvents listener =>
    match h.contexts.get? name with
    | none => h
    | some ⟨context, _⟩ =>
      let committed := Controller.commit logsEvents listener context h.cache
      { store := h.store.write committed.updates
        cache := committed.cache
        revision := if committed.updates.changesStacks then h.revision + 1 else h.revision
        contexts := h.contexts.erase name }
  | .drop name => { h with contexts := h.contexts.erase name }
  | .latestCompatible stack current =>
    let (_, cache, _) := Controller.latestCompatible h.store stack current h.cache
    { h with cache }
  | .invalidate => { h with cache := h.cache.invalidate }

/-- Do actions one after the other. -/
def run (h : SharedHost) (actions : List (Action ω)) : SharedHost := actions.foldl step h

end SharedHost

/-- The stacks were changed by a commit since the tree was loaded. -/
def OpenContext.Overtaken (h : SharedHost) (o : OpenContext) : Prop :=
  ∃ revision, o.loadedAt? = some revision ∧ revision < h.revision

end Chainlets
