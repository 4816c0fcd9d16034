import Chainlets.Proofs.Coherence.Effect

/-!
# Committing the version tree

When a context is committed, the cache is left alone, dropped, or replaced by the staged tree. The
flags of the staged tree decide which, and if they account for what the context wrote, a cache that
is left alone belongs to a context that wrote no stack. So the cache stays in step with the store as
long as the trees that it takes are those of their contexts.

## Main results

* `TreeCache.commit_cases` — what committing does to the cache.
* `TreeCache.commit_inStep` — **when committing keeps the cache in step.**
* `TreeCache.InStep.answer` — what a cache that is in step answers.
-/

namespace Chainlets

variable {store : Store} {cache : TreeCache} {c : Context}

/-- What committing a context does to the cache. It is left alone only if the context wrote no
stack. -/
theorem TreeCache.commit_cases (hc : c.Accounted cache) :
    (cache.commit c.tree = cache ∧ SameStacks ∅ c.updates) ∨
      cache.commit c.tree = cache.invalidate ∨
        ∃ t, c.tree.tree? = some t ∧ cache.isCurrent c.tree = true ∧
          cache.commit c.tree = cache.replace t := by
  rw [TreeCache.commit]
  cases htree : c.tree.tree? with
  | none =>
    cases hdetached : c.tree.detached with
    | true => exact .inr (.inl rfl)
    | false => exact .inl ⟨rfl, hc.untouched hdetached (hc.unloaded htree hdetached)⟩
  | some t =>
    by_cases hcurrent : cache.isCurrent c.tree = true
    · simp only [hcurrent, if_true]
      split
      next => exact .inr (.inr ⟨t, rfl, trivial, rfl⟩)
      next hkeep =>
        simp only [Bool.or_eq_true, decide_eq_true_eq, not_or, Nat.not_lt, Nat.le_zero] at hkeep
        obtain ⟨⟨hchanges, hbase⟩, -⟩ := hkeep
        obtain ⟨g, hg⟩ : ∃ g, c.tree.base? = some g :=
          Option.isSome_iff_exists.1 (by simpa [Option.isSome_iff_ne_none] using hbase)
        exact .inl ⟨rfl, hc.untouched (hc.copied g hg).1 hchanges⟩
    · obtain ⟨g, hg⟩ : ∃ g, c.tree.base? = some g := by
        cases hbase : c.tree.base? with
        | none => simp [TreeCache.isCurrent, hbase] at hcurrent
        | some g => exact ⟨g, rfl⟩
      simp only [hcurrent, if_false, Bool.false_eq_true]
      split
      next => exact .inr (.inl rfl)
      next hchanges => exact .inl ⟨rfl, hc.untouched (hc.copied g hg).1 (by omega)⟩

/-- A tree that was rebuilt always takes the place of the cached one. -/
theorem TreeCache.commit_of_rebuilt {staged : StagedTree} {t : VersionTree}
    (ht : staged.tree? = some t) (hbase : staged.base? = none) (cache : TreeCache) :
    cache.commit staged = cache.replace t := by
  simp [TreeCache.commit, TreeCache.isCurrent, ht, hbase]

/-- **Committing keeps the cache in step**, if the staged tree is that of what the context sees
whenever the cache could take it. -/
theorem TreeCache.commit_inStep (hcache : cache.InStep store) (hc : c.Accounted cache)
    (hcurrent : cache.isCurrent c.tree = true → c.InStep store) :
    (cache.commit c.tree).InStep (store.write c.updates) := by
  rcases TreeCache.commit_cases hc with ⟨heq, hsame⟩ | heq | ⟨t, ht, hiscurrent, heq⟩ <;> rw [heq]
  · intro t ht
    rw [rebuild_write, rebuild_of_untouched hsame]
    exact hcache t ht
  · exact TreeCache.inStep_invalidate _ _
  · rintro _ ⟨⟩
    rw [rebuild_write]
    exact hcurrent hiscurrent t ht

/-! ### Questions -/

/-- Asking for the newest compatible version loads the tree of the store into the cache, if none is
loaded. -/
theorem Controller.latestCompatible_cases (store : Store) (stack current : String)
    (cache : TreeCache) :
    (Controller.latestCompatible store stack current cache).2.1 = cache ∨
      ∃ t, VersionTree.rebuild store = .ok t ∧
        (Controller.latestCompatible store stack current cache).2.1 =
          { cache with tree? := some t } := by
  rw [Controller.latestCompatible, TreeCache.load]
  cases htree : cache.tree? with
  | some t => exact .inl rfl
  | none =>
    cases hrebuild : VersionTree.rebuild store with
    | error failure => exact .inl rfl
    | ok t => exact .inr ⟨t, rfl, rfl⟩

/-- Asking does not begin a new generation. -/
theorem Controller.latestCompatible_generation (store : Store) (stack current : String)
    (cache : TreeCache) :
    (Controller.latestCompatible store stack current cache).2.1.generation = cache.generation := by
  rcases Controller.latestCompatible_cases store stack current cache with heq | ⟨t, -, heq⟩ <;>
    rw [heq]

theorem TreeCache.InStep.latestCompatible (h : cache.InStep store) (stack current : String) :
    (Controller.latestCompatible store stack current cache).2.1.InStep store := by
  rcases Controller.latestCompatible_cases store stack current cache with heq | ⟨t, ht, heq⟩ <;>
    rw [heq]
  · exact h
  · rintro _ ⟨⟩
    exact ht

/-- The answer of a cache that is in step is that of the rebuilt tree. -/
theorem TreeCache.InStep.answer (h : cache.InStep store) {t : VersionTree}
    (ht : VersionTree.rebuild store = .ok t) (stack current : String) :
    (Controller.latestCompatible store stack current cache).1 =
      (t.latestCompatible stack current).mapError .badVersion := by
  rw [Controller.latestCompatible, TreeCache.load]
  cases htree : cache.tree? with
  | some t' =>
    obtain rfl : t' = t := Except.ok.inj ((h t' htree).symm.trans ht)
    rfl
  | none =>
    rw [ht]
    rfl

/-- Caches that are in step with the same store answer alike. -/
theorem TreeCache.InStep.answer_eq {cache' : TreeCache} (h : cache.InStep store)
    (h' : cache'.InStep store) (stack current : String) :
    (Controller.latestCompatible store stack current cache).1 =
      (Controller.latestCompatible store stack current cache').1 := by
  cases hrebuild : VersionTree.rebuild store with
  | ok t => rw [h.answer hrebuild, h'.answer hrebuild]
  | error failure =>
    have hnone : ∀ {c : TreeCache}, c.InStep store → c.tree? = none := by
      intro c hc
      cases htree : c.tree? with
      | none => rfl
      | some t => cases hrebuild.symm.trans (hc t htree)
    simp only [Controller.latestCompatible, TreeCache.load, hnone h, hnone h', hrebuild, bind,
      Except.bind]

end Chainlets
