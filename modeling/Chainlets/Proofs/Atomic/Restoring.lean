import Chainlets.Host.World
import Chainlets.Proofs.Atomic.Script
import Chainlets.Proofs.Coherence.Commit

/-!
# What a failed section restores

An atomic section that fails leaves the writes and the events as they were. The version tree is
dropped if the count of changes has moved since, and is otherwise kept as it is, on the ground that
nobody changed it. But a tree that nobody changed need not be the tree of the restored context: it
may have been loaded inside the section, from stacks whose writes are gone. Only a genesis state is
written without counting a change, so only a section that imports one can leave such a tree behind.

## Main definitions

* `Context.Leaks` — the tree of a failed section stays, and is not that of the restored context.
* `Since` — how far a script has come from the context it began in.

## Main results

* `Script.atomic_restores_iff` — **a failed section restores the context, except for its tree if
  that leaks; and a section that imports no genesis state leaks none.**
* `Script.not_always_restored` — a tree can leak.
-/

namespace Chainlets

/-- The count of changes did not move, so the tree is kept, but it is not that of the context that
is restored. -/
def Context.Leaks (store : Store) (restored failed : Context) : Prop :=
  failed.tree.changes = restored.tree.changes ∧ ∃ t, failed.tree.tree? = some t ∧
    VersionTree.rebuild (Overlay.mk store restored.updates) ≠ .ok t

/-! ### From the beginning of a section -/

/-- What holds in a section of a context and a cache, as long as the count of changes has not moved.
The stacks are those of the beginning, and the tree is theirs, unless a genesis state was written in
between; and that would have detached the tree. -/
structure Since (imports : Prop) (store : Store) (c₀ : Context) (cache₀ : TreeCache) (c : Context)
    (cache : TreeCache) : Prop where
  grows : c₀.Grows c
  /-- The cache is not loaded by operations. -/
  cached : cache.tree? = none ∨ cache.tree? = cache₀.tree?
  steady : c.tree.changes = c₀.tree.changes → (c.tree.detached = false ∨ ¬ imports) →
    SameStacks c₀.updates c.updates ∧ ∀ t, c.tree.tree? = some t →
      VersionTree.rebuild (Overlay.mk store c₀.updates) = .ok t

namespace Since

variable {imports : Prop} {store : Store} {c₀ c c' : Context} {cache₀ cache cache' : TreeCache}

/-- A context whose next tree is the rebuilt one. -/
theorem refl (hview : c₀.nextTree store cache₀ =
    VersionTree.rebuild (Overlay.mk store c₀.updates)) :
    Since imports store c₀ cache₀ c₀ cache₀ where
  grows := .refl _
  cached := .inr rfl
  steady _ _ := by
    refine ⟨SameStacks.refl _, fun t ht => ?_⟩
    rw [← hview, Context.nextTree, ht]

/-- A copy of the cached tree that could be made now could have been made at the beginning. -/
theorem rebuild_eq (h : Since imports store c₀ cache₀ c cache)
    (hview : c₀.nextTree store cache₀ = VersionTree.rebuild (Overlay.mk store c₀.updates))
    (hnone : c.tree.tree? = none) (hdetached : c.tree.detached = false) {t : VersionTree}
    (ht : cache.tree? = some t) : VersionTree.rebuild (Overlay.mk store c₀.updates) = .ok t := by
  obtain ⟨hdetached₀, hnone₀⟩ := h.grows.attached hdetached
  have ht₀ : cache₀.tree? = some t := by
    rcases h.cached with hcached | hcached
    · rw [hcached] at ht
      cases ht
    · rw [← hcached, ht]
  rw [← hview, Context.nextTree_of_none (hnone₀ hnone), ht₀, hdetached₀]

/-- What a tree is that is loaded now, if the stacks are those of the beginning. -/
theorem loads (h : Since imports store c₀ cache₀ c cache)
    (hview : c₀.nextTree store cache₀ = VersionTree.rebuild (Overlay.mk store c₀.updates))
    (hchanges : c.tree.changes = c₀.tree.changes) (hkept : c.tree.detached = false ∨ ¬ imports)
    {loaded : StagedTree} {t : VersionTree}
    (hloads : StagedTree.LoadsTo cache (Overlay.mk store c.updates) c.tree loaded)
    (ht : loaded.tree? = some t) :
    VersionTree.rebuild (Overlay.mk store c₀.updates) = .ok t := by
  obtain ⟨hsame, htree⟩ := h.steady hchanges hkept
  rcases hloads with rfl | ⟨hnone, hload⟩
  · exact htree t ht
  · rcases StagedTree.load_eq_ok_iff.1 hload with
      ⟨t', htree', hdetached, rfl⟩ | ⟨t', -, hrebuild, rfl⟩
    · cases ht
      exact h.rebuild_eq hview hnone hdetached htree'
    · cases ht
      rw [← hsame.rebuild store]
      exact hrebuild

/-- **What an operation makes of it.** -/
theorem effect (h : Since imports store c₀ cache₀ c cache)
    (hview : c₀.nextTree store cache₀ = VersionTree.rebuild (Overlay.mk store c₀.updates))
    {b : Bool} (heffect : Effect b store c cache c' cache') (himports : b = true → imports) :
    Since imports store c₀ cache₀ c' cache' := by
  have hgrows := heffect.grows
  refine ⟨h.grows.trans hgrows, ?_, fun hchanges hkept => ?_⟩
  · rcases heffect.cache_cases with rfl | rfl
    · exact h.cached
    · exact .inl rfl
  · have hchanges₀ : c.tree.changes = c₀.tree.changes :=
      Nat.le_antisymm (hchanges ▸ hgrows.changes_le) h.grows.changes_le
    have hkept₀ : c.tree.detached = false ∨ ¬ imports :=
      hkept.imp_left fun hdetached => (hgrows.attached hdetached).1
    obtain ⟨hsame, -⟩ := h.steady hchanges₀ hkept₀
    cases heffect with
    | quiet same loads =>
      exact ⟨hsame.trans same, fun t ht => h.loads hview hchanges₀ hkept₀ loads ht⟩
    | dropped changes same le tree invalidated =>
      refine ⟨hsame.trans same, fun t ht => ?_⟩
      rw [tree] at ht
      cases ht
    | imported allowed stocking tree =>
      rcases hkept with hdetached | hnot
      · rw [tree] at hdetached
        cases hdetached
      · exact absurd (himports allowed) hnot
    | mirrored stocking loads held tree follows =>
      rw [tree, ← hchanges₀, ← loads.changes_eq] at hchanges
      exact absurd hchanges (Nat.succ_ne_self _)

/-- What the failure of a section inside makes of it. -/
theorem rollback (h : Since imports store c₀ cache₀ c cache) (hgrows : c.Grows c')
    (h' : Since imports store c₀ cache₀ c' cache') :
    Since imports store c₀ cache₀ (c.rollback c') cache' := by
  refine ⟨h.grows.trans hgrows.rollback, h'.cached, fun hchanges hkept => ?_⟩
  have hle := hgrows.rollback.changes_le
  have hchanges₀ : c.tree.changes = c₀.tree.changes :=
    Nat.le_antisymm (hchanges ▸ hle) h.grows.changes_le
  obtain ⟨hsame, -⟩ := h.steady hchanges₀
    (hkept.imp_left fun hdetached => (hgrows.rollback.attached hdetached).1)
  refine ⟨hsame, fun t ht => ?_⟩
  rcases Context.rollback_cases c c' with ⟨-, htree⟩ | ⟨-, htree⟩
  · rw [htree] at hchanges hkept ht
    exact (h'.steady hchanges hkept).2 t ht
  · rw [htree] at ht
    cases ht

end Since

namespace Script

variable {ω : Type} {store : Store}

/-- How far a script has come when it ends. -/
theorem run_since (script : Script ω) (live : Live ω)
    (hview : live.context.nextTree store live.cache =
      VersionTree.rebuild (Overlay.mk store live.context.updates)) :
    Since script.Imports store live.context live.cache (script.run store live).2.context
      (script.run store live).2.cache :=
  (run_induction (fun heffect himports h => Since.effect h hview heffect himports)
    (fun h hgrows h' => h.rollback hgrows h') script id live (Since.refl hview)).2

end Script

/-! ### After a failure -/

section

variable {imports : Prop} {store : Store} {c₀ c : Context} {cache₀ cache : TreeCache}

/-- A section that cannot import a genesis state leaks no tree. -/
theorem Since.not_leaks (h : Since imports store c₀ cache₀ c cache) (himports : ¬ imports) :
    ¬ c₀.Leaks store c := by
  rintro ⟨hchanges, t, ht, hrebuild⟩
  exact hrebuild ((h.steady hchanges (.inr himports)).2 t ht)

/-- A tree that leaks was rebuilt. -/
theorem Since.base_of_leaks (h : Since imports store c₀ cache₀ c cache) (hc : c.Accounted cache)
    (hleaks : c₀.Leaks store c) : c.tree.base? = none := by
  obtain ⟨hchanges, t, ht, hrebuild⟩ := hleaks
  cases hbase : c.tree.base? with
  | none => rfl
  | some g => exact absurd ((h.steady hchanges (.inl (hc.copied g hbase).1)).2 t ht) hrebuild

/-- **The next use of the tree** in the restored context sees the rebuilt tree exactly if no tree
leaks. -/
theorem Since.nextTree_iff (h : Since imports store c₀ cache₀ c cache)
    (hview : c₀.nextTree store cache₀ = VersionTree.rebuild (Overlay.mk store c₀.updates)) :
    (c₀.rollback c).nextTree store cache = VersionTree.rebuild (Overlay.mk store c₀.updates) ↔
      ¬ c₀.Leaks store c := by
  rcases Context.rollback_cases c₀ c with ⟨hchanges, htree⟩ | ⟨hchanges, htree⟩
  · cases ht : c.tree.tree? with
    | some t =>
      rw [Context.nextTree, htree, ht]
      constructor
      · rintro heq ⟨-, t', ht', hrebuild⟩
        rw [ht] at ht'
        cases ht'
        exact hrebuild heq.symm
      · intro hleaks
        refine Classical.byContradiction fun hne => hleaks ⟨hchanges, t, ht, fun heq => ?_⟩
        exact hne heq.symm
    | none =>
      have hleaks : ¬ c₀.Leaks store c := by
        rintro ⟨-, t, ht', -⟩
        rw [ht] at ht'
        cases ht'
      refine ⟨fun _ => hleaks, fun _ => ?_⟩
      rw [Context.nextTree_of_none (by rw [htree, ht]), htree]
      split
      next t hcached hdetached => exact (h.rebuild_eq hview ht hdetached hcached).symm
      next => rfl
  · have hleaks : ¬ c₀.Leaks store c := fun hleaks => hchanges hleaks.1
    refine ⟨fun _ => hleaks, fun _ => ?_⟩
    rw [Context.nextTree_of_none (by rw [htree]; rfl), htree]
    cases cache.tree? <;> rfl

/-- **Committing the restored context** keeps the cache in step exactly if no tree leaks. -/
theorem Since.commit_iff (h : Since imports store c₀ cache₀ c cache) (hc₀ : c₀.Accounted cache₀)
    (hc : c.Accounted cache) (hcache₀ : cache₀.InStep store) :
    (cache.commit (c₀.rollback c).tree).InStep (store.write c₀.updates) ↔ ¬ c₀.Leaks store c := by
  have hcache : cache.InStep store := by
    rcases h.cached with hcached | hcached
    · intro t ht
      rw [hcached] at ht
      cases ht
    · intro t ht
      exact hcache₀ t (hcached ▸ ht)
  constructor
  · intro hcommitted hleaks
    have hbase := h.base_of_leaks hc hleaks
    obtain ⟨hchanges, t, ht, hrebuild⟩ := hleaks
    rcases Context.rollback_cases c₀ c with ⟨-, htree⟩ | ⟨hne, -⟩
    · rw [htree, TreeCache.commit_of_rebuilt ht hbase] at hcommitted
      exact hrebuild ((rebuild_write store c₀.updates).symm.trans (hcommitted t rfl))
    · exact hne hchanges
  · intro hleaks
    refine TreeCache.commit_inStep hcache (hc₀.rollback h.grows hc) fun _ t ht => ?_
    rcases Context.rollback_cases c₀ c with ⟨hchanges, htree⟩ | ⟨-, htree⟩
    · rw [htree] at ht
      exact Classical.byContradiction fun hrebuild => hleaks ⟨hchanges, t, ht, hrebuild⟩
    · rw [htree] at ht
      cases ht

end

namespace Script

variable {ω : Type} {store : Store}

/-- **A section that fails** restores the context, except that the tree of the next use, and of a
commit, is that of the restored context exactly if none leaks. A script that imports no genesis
state leaks none. -/
theorem atomic_restores_iff (store : Store) (script : Script ω) (live : Live ω)
    (hview : live.context.nextTree store live.cache =
      VersionTree.rebuild (Overlay.mk store live.context.updates))
    (hfails : (script.run store live).1 = false) :
    let failed := (script.run store live).2.context
    let after := (script.atomic store live).2
    after.context = { live.context with tree := after.context.tree } ∧
      (after.context.nextTree store after.cache =
          VersionTree.rebuild (Overlay.mk store live.context.updates) ↔
        ¬ live.context.Leaks store failed) ∧
      (live.context.Accounted live.cache → live.cache.InStep store →
        ((after.cache.commit after.context.tree).InStep (store.write after.context.updates) ↔
          ¬ live.context.Leaks store failed)) ∧
      (¬ script.Imports → ¬ live.context.Leaks store failed) := by
  have hsince := script.run_since live hview
  have haccounted := script.run_accounted store live
  simp only [Script.atomic]
  generalize script.run store live = r at *
  obtain ⟨succeeds, failed⟩ := r
  cases hfails
  exact ⟨rfl, hsince.nextTree_iff hview,
    fun hc hcache => hsince.commit_iff hc (haccounted hc) hcache, hsince.not_leaks⟩

/-! ### A tree that leaks -/

/-- A section that writes a genesis state, begins a block, and fails. The block upgrades chainlets
automatically, and loads the version tree to do so. -/
def importAndGiveUp : Script Host.World :=
  let parent := Host.World.parent true
  let genesis : Genesis :=
    { params := { automaticUpgradeInterval := 1 }
      catalog := [⟨"alpha", "", [],
        [⟨"a", "1.0.0", "a", true, false⟩, ⟨"b", "1.1.0", "b", true, false⟩]⟩]
      chainlets := [] }
  .perform parent .initial (.importGenesis genesis) fun _ =>
    .perform parent .initial .beginBlock fun _ => .finish false

/-- A context that was just opened over an empty store. -/
def opened : Live Host.World := ⟨.fresh ⟨1⟩ ⟨0⟩, .unloaded, .initial, []⟩

theorem nextTree_opened : opened.context.nextTree ∅ opened.cache =
    VersionTree.rebuild (Overlay.mk ∅ opened.context.updates) := by
  rw [Context.nextTree_of_none rfl]
  rfl

/-- The section fails, and the stacks that it wrote are in the tree that the next use sees. -/
theorem importAndGiveUp_nextTree :
    let after := (importAndGiveUp.atomic ∅ opened).2
    (importAndGiveUp.run ∅ opened).1 = false ∧
      (after.context.nextTree ∅ after.cache).toOption ≠
        (VersionTree.rebuild (Overlay.mk ∅ opened.context.updates)).toOption := by
  decide +kernel

/-- **A failed section need not restore the version tree.** -/
theorem not_always_restored :
    ¬ ∀ (store : Store) (script : Script Host.World) (live : Live Host.World),
      live.context.nextTree store live.cache =
        VersionTree.rebuild (Overlay.mk store live.context.updates) →
      (script.run store live).1 = false →
      (script.atomic store live).2.context.nextTree store (script.atomic store live).2.cache =
        VersionTree.rebuild (Overlay.mk store live.context.updates) := by
  intro hrestores
  obtain ⟨hfails, hne⟩ := importAndGiveUp_nextTree
  exact hne (congrArg Except.toOption (hrestores ∅ importAndGiveUp opened nextTree_opened hfails))

/-- The tree of the section leaks, and committing the context puts it into the cache. -/
theorem importAndGiveUp_leaks :
    opened.context.nextTree ∅ opened.cache =
        VersionTree.rebuild (Overlay.mk ∅ opened.context.updates) ∧
      (importAndGiveUp.run ∅ opened).1 = false ∧
      opened.context.Leaks ∅ (importAndGiveUp.run ∅ opened).2.context ∧
      let after := (importAndGiveUp.atomic ∅ opened).2
      ¬ (after.cache.commit after.context.tree).InStep
        ((∅ : Store).write after.context.updates) := by
  obtain ⟨hfails, hne⟩ := importAndGiveUp_nextTree
  obtain ⟨-, hnext, hcommit, -⟩ :=
    atomic_restores_iff ∅ importAndGiveUp opened nextTree_opened hfails
  have hleaks : opened.context.Leaks ∅ (importAndGiveUp.run ∅ opened).2.context :=
    Classical.byContradiction fun hnot => hne (congrArg Except.toOption (hnext.2 hnot))
  refine ⟨nextTree_opened, hfails, hleaks, fun hcommitted => ?_⟩
  have hcache : opened.cache.InStep ∅ := fun t ht => by cases ht
  exact (hcommit (Context.accounted_fresh _ _ _) hcache).1 hcommitted hleaks

end Script

end Chainlets
