import Chainlets.Proofs.Coherence.Mirrored

/-!
# What an operation does to the stacks and the version tree

Every operation of the controller has one of four effects on the stacks of its context and on the
version tree: it is quiet, it drops the tree, it writes a genesis state and drops the tree, or it
writes one stack and changes the tree along with it. Which effects keep the tree in step with the
stacks is then a question about four cases, not about the operations.

Two facts about a context are kept by every effect, whatever the store and the cache hold. A
context that is not detached and counts no change has written no stack. And a tree that was copied
carries the generation of the copy.

## Main definitions

* `Effect` — the four effects.
* `Context.Accounted` — the flags of the staged tree account for what the context wrote.
* `Context.InStep` — the staged tree, if it is loaded, is that of what the context sees.

## Main results

* `Controller.perform_effect` — **every operation has one of the effects.**
* `Effect.accounted`, `Effect.stocking`, `Effect.inStep` — what every effect keeps.
* `Execution.run_tree` — the tree that the next use sees.
-/

namespace Chainlets

open Execution

/-! ### Effects -/

/-- What an operation does to the stacks of its context and to the version tree. -/
inductive Effect (imports : Bool) (store : Store) (c : Context) (cache : TreeCache) :
    Context → TreeCache → Prop
  /-- The stacks are the same, and the tree is left as it is or was loaded. -/
  | quiet {c' : Context} (same : SameStacks c.updates c'.updates)
      (loads : StagedTree.LoadsTo cache (Overlay.mk store c.updates) c.tree c'.tree) :
      Effect imports store c cache c' cache
  /-- The stacks are the same, and the tree is dropped, perhaps along with the cached one. -/
  | dropped {c' : Context} {cache' : TreeCache} (changes : Nat)
      (same : SameStacks c.updates c'.updates) (le : c.tree.changes ≤ changes)
      (tree : c'.tree = ⟨none, none, true, changes⟩)
      (invalidated : cache' = cache ∨ cache' = cache.invalidate) :
      Effect imports store c cache c' cache'
  /-- A genesis state was written, and the tree is dropped. Only requests that import one do so. -/
  | imported {c' : Context} (allowed : imports = true)
      (stocking : c.updates.Stocking → c'.updates.Stocking) (tree : c'.tree = c.tree.discard) :
      Effect imports store c cache c' cache
  /-- A stack was written, and the tree was loaded and changed along with it. Over stocked states,
  the tree of the old stacks and that of the new ones both turn into that of the new ones. -/
  | mirrored {c' : Context} {loaded : StagedTree} {t t' : VersionTree}
      (stocking : Stocked store → c.updates.Stocking → c'.updates.Stocking)
      (loads : StagedTree.LoadsTo cache (Overlay.mk store c'.updates) c.tree loaded)
      (held : loaded.tree? = some t)
      (tree : c'.tree = { loaded.handOut with tree? := some t' })
      (follows : Stocked (Overlay.mk store c.updates) →
        VersionTree.rebuild (Overlay.mk store c.updates) = .ok t ∨
          VersionTree.rebuild (Overlay.mk store c'.updates) = .ok t →
        VersionTree.rebuild (Overlay.mk store c'.updates) = .ok t') :
      Effect imports store c cache c' cache

namespace Effect

variable {imports : Bool}

theorem refl (store : Store) (c : Context) (cache : TreeCache) :
    Effect imports store c cache c cache :=
  .quiet (SameStacks.refl _) (.inl rfl)

variable {ω : Type} {s : Surroundings ω} {m m' : Machine ω}

theorem of_quiet (h : Frame.quiet.Rel s m m') :
    Effect imports s.store m.context s.cache m'.context s.cache := .quiet h.1 h.2

theorem of_mirrors (h : Mirrors s m m') :
    Effect imports s.store m.context s.cache m'.context s.cache := by
  obtain ⟨loaded, t, t', hloads, hheld, htree, hfollows⟩ := h.tree
  exact .mirrored h.stocking hloads hheld htree hfollows

end Effect

/-! ### Operations of the controller -/

/-- Whether a request writes a genesis state. -/
def Request.isImport : Request → Bool
  | .importGenesis _ => true
  | _ => false

namespace Controller

variable {ω α : Type} {store : Store} {parent : Parent ω} {imports : Bool}

/-- How an operation ends: with what its execution leaves, or undone. -/
theorem execute_cases (x : Execution ω α) (live : Live ω) :
    (∃ a m', x.run ⟨store, parent, live.cache⟩ ⟨live.context, live.world, live.log⟩ = (.ok a, m') ∧
      execute store parent x live = (.ok a, { live with
        context := m'.context, world := m'.world, log := m'.log })) ∨
    ∃ failure m',
      x.run ⟨store, parent, live.cache⟩ ⟨live.context, live.world, live.log⟩ =
        (.error failure, m') ∧
      execute store parent x live = (.error failure, settle failure { live with
        context := live.context.rollback m'.context, world := m'.world, log := m'.log }) := by
  cases hrun : x.run ⟨store, parent, live.cache⟩ ⟨live.context, live.world, live.log⟩ with
  | mk result m' =>
    cases result with
    | ok a =>
      refine .inl ⟨a, m', rfl, ?_⟩
      rw [execute, runBare, run_atomic_of_ok hrun]
    | error failure =>
      refine .inr ⟨failure, m', rfl, ?_⟩
      rw [execute, runBare, run_atomic_of_error hrun]

/-- The context and the cache after an operation has failed. -/
theorem settle_context (failure : Failure) (live : Live ω) :
    (settle failure live).context = { live.context with
        tree := if failure.isFatal then live.context.tree.discard else live.context.tree } ∧
      (settle failure live).cache =
        if failure.isFatal then live.cache.invalidate else live.cache := by
  rw [settle]
  cases failure.isFatal <;> exact ⟨rfl, rfl⟩

/-- A failure is settled without the parent chain. -/
theorem settle_world (failure : Failure) (live : Live ω) :
    (settle failure live).world = live.world := by
  rw [settle]
  split <;> rfl

/-- A message is rejected by its own check, or its operation is carried out. -/
theorem perform_message (store : Store) (parent : Parent ω) (msg : Message) (live : Live ω) :
    (∃ failure, msg.check = .error failure ∧
      perform store parent (.handle msg) live = (.error failure, live)) ∨
    msg.check = .ok () ∧ perform store parent (.handle msg) live =
      ((execute store parent (Operation.ofMessage msg) live).1.map fun _ => .done,
        (execute store parent (Operation.ofMessage msg) live).2) := by
  rw [perform, handle]
  cases msg.check with
  | error failure => exact .inl ⟨failure, rfl, rfl⟩
  | ok _ => exact .inr ⟨rfl, rfl⟩

/-- The context after an operation has succeeded is what its execution left. -/
theorem execute_of_ok {x : Execution ω α} {live : Live ω} {a : α} {m' : Machine ω}
    (h : x.run ⟨store, parent, live.cache⟩ ⟨live.context, live.world, live.log⟩ = (.ok a, m')) :
    (execute store parent x live).1 = .ok a ∧
      (execute store parent x live).2.context = m'.context := by
  rw [execute, runBare, run_atomic_of_ok h]
  exact ⟨rfl, rfl⟩

/-- An operation that fails leaves the buffered writes and the events as they were. -/
theorem execute_of_error {x : Execution ω α} {live : Live ω} {failure : Failure} {m' : Machine ω}
    (h : x.run ⟨store, parent, live.cache⟩ ⟨live.context, live.world, live.log⟩ =
      (.error failure, m')) :
    (execute store parent x live).1 = .error failure ∧
      (execute store parent x live).2.context.updates = live.context.updates ∧
      (execute store parent x live).2.context.events = live.context.events := by
  rcases @execute_cases _ _ store parent x live with ⟨a, m₁, hrun, heq⟩ | ⟨_, m₁, hrun, heq⟩
  · cases h.symm.trans hrun
  · cases h.symm.trans hrun
    rw [heq, (settle_context failure _).1]
    exact ⟨rfl, rfl, rfl⟩

/-- What an operation leaves in the context: what its execution leaves, or the writes and the events
that were there. -/
theorem execute_ends (store : Store) (parent : Parent ω) (x : Execution ω α) (live : Live ω) :
    let after := execute store parent x live
    (∃ a m', x.run ⟨store, parent, live.cache⟩ ⟨live.context, live.world, live.log⟩ = (.ok a, m') ∧
      after.1 = .ok a ∧ after.2.context = m'.context) ∨
    ∃ failure m', x.run ⟨store, parent, live.cache⟩ ⟨live.context, live.world, live.log⟩ =
        (.error failure, m') ∧
      after.1 = .error failure ∧ after.2.context.updates = live.context.updates ∧
        after.2.context.events = live.context.events := by
  intro after
  cases hrun : x.run ⟨store, parent, live.cache⟩ ⟨live.context, live.world, live.log⟩ with
  | mk result m' =>
    cases result with
    | ok a => exact .inl ⟨a, m', rfl, execute_of_ok hrun⟩
    | error failure => exact .inr ⟨failure, m', rfl, execute_of_error hrun⟩

/-- An operation whose failures are visible, and which has an effect when it succeeds, has one in
any case. -/
theorem execute_effect {x : Execution ω α} {live : Live ω} (hfails : x.FailsVisibly)
    (hok : ∀ a m', x.run ⟨store, parent, live.cache⟩ ⟨live.context, live.world, live.log⟩ =
      (.ok a, m') → Effect imports store live.context live.cache m'.context live.cache) :
    Effect imports store live.context live.cache (execute store parent x live).2.context
      (execute store parent x live).2.cache := by
  rcases execute_cases x live with ⟨a, m', hrun, heq⟩ | ⟨failure, m', hrun, heq⟩
  · rw [heq]
    exact hok a m' hrun
  · rw [heq]
    obtain ⟨hcontext, hcache⟩ := settle_context failure { live with
      context := live.context.rollback m'.context, world := m'.world, log := m'.log }
    simp only at hcontext hcache ⊢
    rw [hcontext, hcache]
    rcases hfails _ _ _ _ hrun with hloads | hlt
    · have htree : (live.context.rollback m'.context).tree = m'.context.tree := by
        rw [Context.rollback]
        exact if_pos hloads.changes_eq
      cases failure.isFatal with
      | true =>
        refine .dropped m'.context.tree.changes (SameStacks.refl _)
          (Nat.le_of_eq hloads.changes_eq.symm) ?_ (.inr rfl)
        simp only [htree, if_true]
        rfl
      | false =>
        refine .quiet (SameStacks.refl _) ?_
        simp only [htree, Bool.false_eq_true, if_false]
        exact hloads
    · have htree : (live.context.rollback m'.context).tree = m'.context.tree.discard := by
        rw [Context.rollback]
        exact if_neg (Nat.ne_of_gt hlt)
      refine .dropped m'.context.tree.changes (SameStacks.refl _)
        (Nat.le_of_lt hlt) ?_ ?_
      · simp only [htree]
        cases failure.isFatal <;> rfl
      · cases failure.isFatal with
        | true => exact .inr rfl
        | false => exact .inl rfl

theorem execute_effect_of_quiet {x : Execution ω α} (h : Keeps Frame.quiet x) (live : Live ω) :
    Effect imports store live.context live.cache (execute store parent x live).2.context
      (execute store parent x live).2.cache :=
  execute_effect (.of_quiet h) fun _ _ hrun => .of_quiet (h.rel hrun)

/-- What a message does to the stacks and the tree. -/
theorem execute_ofMessage_effect {msg : Message} {u : Unit} (hcheck : msg.check = .ok u)
    (live : Live ω) :
    Effect imports store live.context live.cache
      (execute store parent (Operation.ofMessage msg) live).2.context
      (execute store parent (Operation.ofMessage msg) live).2.cache := by
  cases msg with
  | createStack msg =>
    exact execute_effect (Operation.createStack_failsVisibly msg) fun _ _ hrun =>
      .of_mirrors (Operation.createStack_mirrors hrun)
  | addVersion msg =>
    exact execute_effect (Operation.addVersion_failsVisibly msg) fun _ _ hrun =>
      .of_mirrors (Operation.addVersion_mirrors hrun)
  | disableVersion msg =>
    obtain ⟨p, hp⟩ : ∃ p, Version.parse msg.version = .ok p := by
      obtain ⟨_, -, hcheck⟩ := Except.bind_eq_ok.1 hcheck
      obtain ⟨_, -, hcheck⟩ := Except.bind_eq_ok.1 hcheck
      exact requireVersion_ok hcheck
    refine execute_effect (Operation.disableVersion_failsVisibly msg) fun _ m' hrun => ?_
    rcases Operation.disableVersion_cases hp hrun with hmirrors | rfl
    · exact .of_mirrors hmirrors
    · exact Effect.refl _ _ _
  | launch msg =>
    exact execute_effect_of_quiet (Operation.keeps_launch Frame.allowsCalls_quiet msg) live
  | requestUpgrade msg =>
    exact execute_effect_of_quiet
      (Operation.keeps_requestUpgrade Frame.allowsPackets_quiet msg) live
  | cancelUpgrade msg =>
    exact execute_effect_of_quiet (quiet_of_noting (Operation.noting_cancelUpgrade msg)) live

/-- **Every operation has one of the effects**, whether it succeeds or fails. -/
theorem perform_effect (store : Store) (parent : Parent ω) (request : Request) (live : Live ω) :
    Effect request.isImport store live.context live.cache
      (perform store parent request live).2.context
      (perform store parent request live).2.cache := by
  cases request with
  | importGenesis genesis =>
    refine execute_effect ?_ fun _ m' hrun => ?_
    · intro s m failure m' hrun
      rcases bind_eq_error.1 hrun with hrun | ⟨_, _, -, hrun⟩
      · exact Operation.importGenesis_failsVisibly genesis _ _ _ _ hrun
      · cases hrun
    · obtain ⟨_, m₁, hrun, hpure⟩ := bind_eq_ok.1 hrun
      cases hpure
      obtain ⟨hstocking, htree⟩ := Operation.importGenesis_ok hrun
      exact .imported rfl hstocking htree
  | handle msg =>
    change Effect _ store live.context live.cache (handle store parent msg live).2.context
      (handle store parent msg live).2.cache
    rw [handle]
    split
    next => exact Effect.refl _ _ _
    next hcheck => exact execute_ofMessage_effect hcheck live
  | setStatus chainId status =>
    exact execute_effect_of_quiet
      ((Operation.keeps_setStatus Frame.allowsRecords_quiet chainId status).map _) live
  | receive packet =>
    have heffect : Effect false store live.context live.cache
        (execute store parent (Operation.receive packet) live).2.context
        (execute store parent (Operation.receive packet) live).2.cache :=
      execute_effect_of_quiet (Operation.keeps_receive Frame.allowsRecords_quiet packet) live
    change Effect _ store live.context live.cache (receive store parent packet live).2.context
      (receive store parent packet live).2.cache
    rw [receive]
    split
    next heq => rw [heq] at heffect; exact heffect
    next heq => rw [heq] at heffect; exact heffect
  | acknowledged packet answer =>
    exact execute_effect_of_quiet
      ((Operation.keeps_acknowledged Frame.allowsRecords_quiet packet answer).map _) live
  | timedOut packet =>
    exact execute_effect_of_quiet
      ((Operation.keeps_timedOut Frame.allowsRecords_quiet packet).map _) live
  | beginBlock =>
    exact execute_effect_of_quiet
      ((Operation.keeps_beginBlock Frame.allowsInits_quiet).bind fun _ => Keeps.pure _) live

end Controller

/-! ### What every effect keeps -/

/-- The flags of the staged tree account for what the context wrote. -/
structure Context.Accounted (cache : TreeCache) (c : Context) : Prop where
  /-- No stack was written unless the tree was handed out or dropped. -/
  untouched : c.tree.detached = false → c.tree.changes = 0 → SameStacks ∅ c.updates
  /-- A tree that was not loaded yet was not handed out either. -/
  unloaded : c.tree.tree? = none → c.tree.detached = false → c.tree.changes = 0
  /-- A tree that was copied is a copy of a generation that was reached. -/
  copied : ∀ g, c.tree.base? = some g → c.tree.detached = false ∧ g ≤ cache.generation

/-- The staged tree, if it is loaded, is the tree of what the context sees. -/
def Context.InStep (store : Store) (c : Context) : Prop :=
  ∀ t, c.tree.tree? = some t → VersionTree.rebuild (Overlay.mk store c.updates) = .ok t

/-- The cached tree, if there is one, is the tree of the store. -/
def TreeCache.InStep (store : Store) (cache : TreeCache) : Prop :=
  ∀ t, cache.tree? = some t → VersionTree.rebuild store = .ok t

theorem TreeCache.inStep_invalidate (store : Store) (cache : TreeCache) :
    cache.invalidate.InStep store := fun t ht => by cases ht

/-- A context that was just opened. -/
theorem Context.accounted_fresh (cache : TreeCache) (height : Height) (time : Time) :
    (Context.fresh height time).Accounted cache where
  untouched _ _ := SameStacks.refl _
  unloaded _ _ := rfl
  copied g hg := by cases hg

theorem Context.inStep_fresh (store : Store) (height : Height) (time : Time) :
    (Context.fresh height time).InStep store := fun t ht => by cases ht

/-- A context that has written no stack sees those of the store. -/
theorem rebuild_of_untouched {u : Updates} (h : SameStacks ∅ u) (store : Store) :
    VersionTree.rebuild (Overlay.mk store u) = VersionTree.rebuild store :=
  (h.rebuild store).trans (rebuild_opened store)

namespace Context.Accounted

variable {store : Store} {cache : TreeCache} {c : Context}

/-- The account stays right while the generation goes up. -/
theorem mono (h : c.Accounted cache) {cache' : TreeCache}
    (hle : cache.generation ≤ cache'.generation) : c.Accounted cache' :=
  ⟨h.untouched, h.unloaded, fun g hg => ⟨(h.copied g hg).1, Nat.le_trans (h.copied g hg).2 hle⟩⟩

/-- An unloaded tree that may be copied belongs to a context that sees the stacks of the store. -/
theorem rebuild_eq (h : c.Accounted cache) (hnone : c.tree.tree? = none)
    (hdetached : c.tree.detached = false) :
    VersionTree.rebuild (Overlay.mk store c.updates) = VersionTree.rebuild store :=
  rebuild_of_untouched (h.untouched hdetached (h.unloaded hnone hdetached)) store

/-- A context whose tree was dropped has nothing to account for. -/
theorem of_dropped (hdetached : c.tree.detached = true) (hbase : c.tree.base? = none) :
    c.Accounted cache where
  untouched h _ := by rw [hdetached] at h; cases h
  unloaded _ h := by rw [hdetached] at h; cases h
  copied g hg := by rw [hbase] at hg; cases hg

end Context.Accounted

/-- A copy that was loaded carries the generation of the cache. -/
theorem StagedTree.LoadsTo.copied {κ : Type} [Readable κ] {cache : TreeCache} {r : κ}
    {before after : StagedTree} (h : StagedTree.LoadsTo cache r before after) {g : Nat}
    (hg : after.base? = some g) :
    before.base? = some g ∨ before.detached = false ∧ g = cache.generation := by
  rcases h with rfl | ⟨-, hload⟩
  · exact .inl hg
  · rcases StagedTree.load_eq_ok_iff.1 hload with ⟨t, -, hdetached, rfl⟩ | ⟨t, -, -, rfl⟩
    · exact .inr ⟨hdetached, (Option.some.inj hg).symm⟩
    · cases hg

namespace Effect

variable {imports : Bool} {store : Store} {c c' : Context} {cache cache' : TreeCache}

/-- The cache is left alone or invalidated. -/
theorem cache_cases (h : Effect imports store c cache c' cache') :
    cache' = cache ∨ cache' = cache.invalidate := by
  cases h with
  | quiet => exact .inl rfl
  | dropped _ _ _ _ h => exact h
  | imported => exact .inl rfl
  | mirrored => exact .inl rfl

theorem generation_le (h : Effect imports store c cache c' cache') :
    cache.generation ≤ cache'.generation := by
  rcases h.cache_cases with rfl | rfl
  · exact Nat.le_refl _
  · exact Nat.le_succ _

/-- The cached tree stays in step, since operations do not write to the store. -/
theorem cache_inStep (h : Effect imports store c cache c' cache') (hcache : cache.InStep store) :
    cache'.InStep store := by
  rcases h.cache_cases with rfl | rfl
  · exact hcache
  · exact TreeCache.inStep_invalidate store cache

/-- Stores stay stocked. -/
theorem stocking (h : Effect imports store c cache c' cache') (hstore : Stocked store)
    (hstocking : c.updates.Stocking) : c'.updates.Stocking := by
  cases h with
  | quiet same => exact same.stocking hstocking
  | dropped changes same => exact same.stocking hstocking
  | imported allowed stocking => exact stocking hstocking
  | mirrored stocking => exact stocking hstore hstocking

/-- The flags stay right. -/
theorem accounted (h : Effect imports store c cache c' cache') (hc : c.Accounted cache) :
    c'.Accounted cache' := by
  cases h with
  | quiet same loads =>
    refine ⟨fun hdetached hchanges => ?_, fun hnone hdetached => ?_, fun g hg => ?_⟩
    · rw [loads.detached_eq] at hdetached
      rw [loads.changes_eq] at hchanges
      exact (hc.untouched hdetached hchanges).trans same
    · rw [loads.detached_eq] at hdetached
      rw [loads.changes_eq]
      rcases loads with heq | ⟨hnone', -⟩
      · exact hc.unloaded (heq ▸ hnone) hdetached
      · exact hc.unloaded hnone' hdetached
    · rw [loads.detached_eq]
      rcases loads.copied hg with hg | ⟨hdetached, rfl⟩
      · exact hc.copied g hg
      · exact ⟨hdetached, Nat.le_refl _⟩
  | dropped changes same le tree invalidated => exact .of_dropped (by rw [tree]) (by rw [tree])
  | imported allowed stocking tree => exact .of_dropped (by rw [tree]; rfl) (by rw [tree]; rfl)
  | @mirrored loaded _ _ stocking loads held tree follows =>
    refine ⟨fun _ hchanges => ?_, fun hnone _ => ?_, fun g hg => ?_⟩
    · rw [tree] at hchanges
      cases hchanges
    · rw [tree] at hnone
      cases hnone
    · rw [tree] at hg ⊢
      change loaded.detached = false ∧ _
      rw [loads.detached_eq]
      rcases loads.copied hg with hg | ⟨hdetached, rfl⟩
      · exact hc.copied g hg
      · exact ⟨hdetached, Nat.le_refl _⟩

/-- **The tree is in step afterwards**, if the tree that was there was in step and a copy that is
loaded is that of what the context sees. -/
theorem inStep_of (h : Effect imports store c cache c' cache') (hstore : Stocked store)
    (hstocking : c.updates.Stocking)
    (hkept : c'.tree.base? = c.tree.base? → c.InStep store)
    (hcopied : c'.tree.base? = some cache.generation → c.tree.tree? = none →
      c.tree.detached = false → ∀ t, cache.tree? = some t →
        VersionTree.rebuild (Overlay.mk store c.updates) = .ok t) : c'.InStep store := by
  have hloads : ∀ {u : Updates} {loaded : StagedTree} {t : VersionTree},
      StagedTree.LoadsTo cache (Overlay.mk store u) c.tree loaded → loaded.tree? = some t →
      c'.tree.base? = loaded.base? →
      VersionTree.rebuild (Overlay.mk store c.updates) = .ok t ∨
        VersionTree.rebuild (Overlay.mk store u) = .ok t := by
    rintro u loaded t (rfl | ⟨hnone, hload⟩) ht hbase
    · exact .inl (hkept hbase t ht)
    · rcases StagedTree.load_eq_ok_iff.1 hload with
        ⟨t', htree, hdetached, rfl⟩ | ⟨t', -, hrebuild, rfl⟩
      · cases ht
        exact .inl (hcopied hbase hnone hdetached t htree)
      · cases ht
        exact .inr hrebuild
  intro t ht
  cases h with
  | quiet same loads =>
    rw [same.rebuild store]
    exact (hloads loads ht rfl).elim id id
  | dropped changes same le tree invalidated =>
    rw [tree] at ht
    cases ht
  | imported allowed stocking tree =>
    rw [tree] at ht
    cases ht
  | mirrored stocking loads held tree follows =>
    rw [tree] at ht
    cases ht
    exact follows (hstocking store hstore) (hloads loads held (by rw [tree]; rfl))

/-- **A tree that is in step stays in step**, over a cache that is. -/
theorem inStep (h : Effect imports store c cache c' cache') (hstore : Stocked store)
    (hstocking : c.updates.Stocking) (hc : c.Accounted cache) (hcache : cache.InStep store)
    (hstep : c.InStep store) : c'.InStep store :=
  h.inStep_of hstore hstocking (fun _ => hstep) fun _ hnone hdetached t ht =>
    (hc.rebuild_eq hnone hdetached).trans (hcache t ht)

end Effect

/-! ### The next use of the tree -/

/-- The tree that the next use in a context sees: the staged one, or the one that is loaded then. -/
def Context.nextTree (store : Store) (cache : TreeCache) (c : Context) :
    Except Failure VersionTree :=
  match c.tree.tree? with
  | some t => .ok t
  | none => (c.tree.load cache (Overlay.mk store c.updates)).map fun staged => staged.tree?.getD ∅

theorem Execution.run_tree {ω : Type} (s : Surroundings ω) (m : Machine ω) :
    (Execution.tree.run s m).1 = m.context.nextTree s.store s.cache := by
  rw [Context.nextTree]
  rcases loadTree_cases s m with ⟨staged, log, hrun, hloads, t, ht⟩ | ⟨failure, hrun, hnone, hload⟩
  · have htree : (Execution.tree.run s m).1 = .ok (staged.tree?.getD ∅) := by
      rw [Execution.tree, run_bind_of_ok hrun]
      rfl
    rw [htree]
    rcases hloads with rfl | ⟨hnone, hload⟩
    · rw [ht]
      rfl
    · rw [hnone, hload]
      rfl
  · rw [Execution.tree, run_bind_of_error hrun, hnone, hload]
    rfl

/-- What the next use sees if no tree is loaded. -/
theorem Context.nextTree_of_none {store : Store} {cache : TreeCache} {c : Context}
    (hnone : c.tree.tree? = none) :
    c.nextTree store cache =
      match cache.tree?, c.tree.detached with
      | some t, false => .ok t
      | _, _ => VersionTree.rebuild (Overlay.mk store c.updates) := by
  rw [Context.nextTree, hnone, StagedTree.load]
  cases cache.tree? with
  | none => cases VersionTree.rebuild (Overlay.mk store c.updates) <;> rfl
  | some t =>
    cases c.tree.detached with
    | false => rfl
    | true => cases VersionTree.rebuild (Overlay.mk store c.updates) <;> rfl

/-- In a context whose tree is in step and whose flags are right, over a cache that is in step, the
next use of the tree sees the rebuilt tree. -/
theorem Context.Accounted.nextTree_eq {store : Store} {cache : TreeCache} {c : Context}
    (hc : c.Accounted cache) (hcache : cache.InStep store) (hstep : c.InStep store) :
    c.nextTree store cache = VersionTree.rebuild (Overlay.mk store c.updates) := by
  cases htree : c.tree.tree? with
  | some t =>
    rw [Context.nextTree, htree]
    exact (hstep t htree).symm
  | none =>
    rw [Context.nextTree_of_none htree]
    split
    next t htree' hdetached =>
      exact ((hc.rebuild_eq htree hdetached).trans (hcache t htree')).symm
    next => rfl

end Chainlets
