import Chainlets.Host.World
import Chainlets.Proofs.SharedHost.Records

/-!
# Generations

A staged tree that was copied from the cache is taken over by the cache only if no new generation
has begun since, and so never after it was overtaken. A tree that was rebuilt is always taken over.
If the stacks were changed by another commit in the meantime, that change is missing from the cache
afterwards.

That is the only way in which the cache of a shared host can come to disagree with the store. The
invariant is that the cache, and all copies of its generation, are in step. Every action keeps it
that does not commit a rebuilt tree which is out of step, and one that does breaks it at once.

## Main definitions

* `SharedHost.InstallsStale` — an action that commits a rebuilt tree that is out of step.
* `SharedHost.Agreeing` — the invariant of runs that install no stale tree.

## Main results

* `SharedHost.cached_iff` — **the cache is in step throughout a run exactly if no action of the run
  installs a stale tree**, and only rebuilt trees that were overtaken are stale.
* `SharedHost.not_always_cached` — a committed version can be lost from the cache.
-/

namespace Chainlets

namespace SharedHost

variable {ω : Type}

/-! ### Stale trees -/

/-- The action commits a tree that was rebuilt, and is not that of what its context sees. -/
def InstallsStale (h : SharedHost) : Action ω → Prop
  | .commit name _ _ => ∃ o, h.contexts.get? name = some o ∧ o.context.tree.base? = none ∧
      ¬ o.context.InStep h.store
  | _ => False

/-- The cached tree is that of the store, and the copies of its generation are those of their
contexts. -/
structure Agreeing (h : SharedHost) : Prop where
  cached : h.cache.InStep h.store
  copied : ∀ name o, h.contexts.get? name = some o →
    o.context.tree.base? = some h.cache.generation → o.context.InStep h.store

theorem agreeing_start (store : Store) : (start store).Agreeing where
  cached t ht := by cases ht
  copied name o ho := by cases ho

variable {h : SharedHost}

/-- A new generation begins without copies. -/
theorem Recorded.agreeing_of_generation {h' : SharedHost} (hh : h.Recorded)
    (hcached : h'.cache.InStep h'.store)
    (hcontexts : ∀ name o, h'.contexts.get? name = some o → h.contexts.get? name = some o)
    (hgeneration : h'.cache.generation = h.cache.generation + 1) : h'.Agreeing where
  cached := hcached
  copied name o ho hbase := by
    have hle := ((hh.opened name o (hcontexts name o ho)).accounted.copied _ hbase).2
    omega

/-- An operation keeps the cache and the copies in step. -/
theorem Agreeing.perform {imports : Bool} (ha : h.Agreeing) (hh : h.Recorded) {name : String}
    {o : OpenContext} (ho : h.contexts.get? name = some o) {context : Context} {cache : TreeCache}
    (heffect : Effect imports h.store o.context h.cache context cache) (loadedAt? : Option Nat) :
    Agreeing { h with cache, contexts := h.contexts.insert name ⟨context, loadedAt?⟩ } := by
  have hbefore := hh.opened name o ho
  -- A copy of the generation after the operation is a copy of the one before.
  have hgeneration : ∀ {c : Context}, c.Accounted h.cache →
      c.tree.base? = some cache.generation → cache.generation = h.cache.generation := by
    intro c hc hbase
    exact Nat.le_antisymm (hc.copied _ hbase).2 heffect.generation_le
  refine ⟨heffect.cache_inStep ha.cached, fun name' o' ho' hbase => ?_⟩
  change o'.context.tree.base? = some cache.generation at hbase
  change o'.context.InStep h.store
  rcases OrderedMap.get?_insert_cases ho' with ⟨rfl, rfl⟩ | ho'
  · refine heffect.inStep_of hh.stocked hbefore.stocking (fun heq => ?_)
      fun _ hnone hdetached t ht =>
        (hbefore.accounted.rebuild_eq hnone hdetached).trans (ha.cached t ht)
    rw [show context.tree.base? = _ from hbase] at heq
    have hsame := hgeneration hbefore.accounted heq.symm
    exact ha.copied _ o ho (by rw [← heq, hsame])
  · have hsame := hgeneration (hh.opened name' o' ho').accounted hbase
    exact ha.copied name' o' ho' (by rw [hbase, hsame])

/-- A commit that installs no stale tree keeps the cache and the copies in step. -/
theorem Agreeing.commit (ha : h.Agreeing) (hh : h.Recorded) {name : String} {o : OpenContext}
    (ho : h.contexts.get? name = some o)
    (hstale : o.context.tree.base? = none → o.context.InStep h.store) (revision : Nat) :
    Agreeing ⟨h.store.write o.context.updates, h.cache.commit o.context.tree, revision,
      h.contexts.erase name⟩ := by
  have haccounted := (hh.opened name o ho).accounted
  have hcached : (h.cache.commit o.context.tree).InStep (h.store.write o.context.updates) := by
    refine TreeCache.commit_inStep ha.cached haccounted fun hcurrent => ?_
    cases hbase : o.context.tree.base? with
    | none => exact hstale hbase
    | some g =>
      obtain rfl : g = h.cache.generation := by
        simpa [TreeCache.isCurrent, hbase] using hcurrent
      exact ha.copied name o ho hbase
  have hothers : ∀ name' o', (h.contexts.erase name).get? name' = some o' →
      h.contexts.get? name' = some o' := fun _ _ => OrderedMap.get?_of_get?_erase
  rcases TreeCache.commit_generation haccounted with ⟨heq, hchanges⟩ | heq
  · refine ⟨hcached, fun name' o' ho' hbase t ht => ?_⟩
    rw [rebuild_congr_base (get?_write_of_unchanged hchanges h.store)]
    rw [heq] at hbase
    exact ha.copied name' o' (hothers name' o' ho') hbase t ht
  · exact hh.agreeing_of_generation hcached hothers heq

/-- **An action that installs no stale tree keeps the cache and the copies in step.** -/
theorem Agreeing.step (ha : h.Agreeing) (hh : h.Recorded) {action : Action ω}
    (hstale : ¬ h.InstallsStale action) : (h.step action).Agreeing := by
  cases action with
  | openContext name height time =>
    refine ⟨ha.cached, fun name' o ho hbase => ?_⟩
    rcases OrderedMap.get?_insert_cases ho with ⟨rfl, rfl⟩ | ho
    · exact Context.inStep_fresh _ height time
    · exact ha.copied name' o ho hbase
  | perform name parent world request =>
    rw [SharedHost.step]
    cases hget : h.contexts.get? name with
    | none => exact ha
    | some o =>
      exact ha.perform hh hget
        (Controller.perform_effect h.store parent request ⟨o.context, h.cache, world, []⟩) _
  | commit name logsEvents listener =>
    rw [SharedHost.step]
    cases hget : h.contexts.get? name with
    | none => exact ha
    | some o =>
      refine ha.commit hh hget (fun hbase => ?_) _
      by_cases hstep : o.context.InStep h.store
      · exact hstep
      · exact absurd ⟨o, hget, hbase, hstep⟩ hstale
  | drop name =>
    exact ⟨ha.cached, fun name' o ho => ha.copied name' o (OrderedMap.get?_of_get?_erase ho)⟩
  | latestCompatible stack current =>
    refine ⟨ha.cached.latestCompatible stack current, fun name o ho hbase => ?_⟩
    exact ha.copied name o ho (hbase.trans (congrArg some
      (Controller.latestCompatible_generation ..)))
  | invalidate =>
    exact hh.agreeing_of_generation (TreeCache.inStep_invalidate _ _) (fun _ _ ho => ho) rfl

/-- An action that installs a stale tree leaves the cache out of step. -/
theorem not_inStep_of_installsStale {action : Action ω} (hstale : h.InstallsStale action) :
    ¬ (h.step action).cache.InStep (h.step action).store := by
  cases action with
  | commit name logsEvents listener =>
    obtain ⟨o, ho, hbase, hstep⟩ := hstale
    obtain ⟨t, hnot⟩ := Classical.not_forall.1 hstep
    obtain ⟨ht, hrebuild⟩ := Classical.not_imp.1 hnot
    intro hcached
    rw [SharedHost.step, ho] at hcached
    have hcommit : (Controller.commit logsEvents listener o.context h.cache).cache =
        h.cache.replace t := TreeCache.commit_of_rebuilt ht hbase h.cache
    have hwritten := hcached t (congrArg TreeCache.tree? hcommit)
    exact hrebuild ((rebuild_write h.store o.context.updates).symm.trans hwritten)
  | openContext => cases hstale
  | perform => cases hstale
  | drop => cases hstale
  | latestCompatible => cases hstale
  | invalidate => cases hstale

/-! ### Runs -/

theorem Recorded.run (hh : h.Recorded) (actions : List (Action ω)) : (h.run actions).Recorded := by
  induction actions generalizing h with
  | nil => exact hh
  | cons action actions ih => exact ih (hh.step action)

theorem run_append (h : SharedHost) (actions actions' : List (Action ω)) :
    h.run (actions ++ actions') = (h.run actions).run actions' := List.foldl_append ..

/-- A run that installs no stale tree keeps the cache and the copies in step. -/
theorem Agreeing.run (ha : h.Agreeing) (hh : h.Recorded) {actions : List (Action ω)}
    (hstale : ∀ before action, before ++ [action] <+: actions →
      ¬ (h.run before).InstallsStale action) : (h.run actions).Agreeing := by
  induction actions generalizing h with
  | nil => exact ha
  | cons action actions ih =>
    have hfirst : ¬ h.InstallsStale action := hstale [] action (by simp)
    refine ih (ha.step hh hfirst) (hh.step action) fun before action' hprefix => ?_
    exact hstale (action :: before) action' (by simpa using hprefix)

/-- **The cache is in step throughout a run exactly if no action of the run installs a stale
tree.** A copy that was overtaken is not taken over by the cache, and a rebuilt tree is out of step
only if it was overtaken. -/
theorem cached_iff {store : Store} (hstore : Stocked store) (actions : List (Action ω)) :
    ((∀ before, before <+: actions →
        ((start store).run before).cache.InStep ((start store).run before).store) ↔
      ∀ before action, before ++ [action] <+: actions →
        ¬ ((start store).run before).InstallsStale action) ∧
    ∀ before, before <+: actions → ∀ name o,
      ((start store).run before).contexts.get? name = some o →
      ∀ t, o.context.tree.tree? = some t →
        (o.context.tree.base? ≠ none → o.Overtaken ((start store).run before) →
          ((start store).run before).cache.isCurrent o.context.tree = false) ∧
        (o.context.tree.base? = none →
          ¬ o.context.InStep ((start store).run before).store →
          o.Overtaken ((start store).run before)) := by
  have hrecorded := recorded_start hstore
  refine ⟨⟨fun hcached before action hprefix hstale => ?_, fun hstale before hprefix => ?_⟩,
    fun before hprefix name o ho t ht => ⟨fun hbase hovertaken => ?_, fun hbase hstep => ?_⟩⟩
  · have hafter := hcached (before ++ [action]) hprefix
    rw [run_append] at hafter
    exact not_inStep_of_installsStale hstale hafter
  · exact ((agreeing_start store).run hrecorded fun before' action hprefix' =>
      hstale before' action (hprefix'.trans hprefix)).cached
  · obtain ⟨g, hg⟩ := Option.ne_none_iff_exists'.1 hbase
    obtain ⟨revision, hat, hlt⟩ := hovertaken
    rw [TreeCache.isCurrent, hg]
    refine decide_eq_false fun heq => ?_
    rw [heq] at hg
    rw [((hrecorded.run before).opened name o ho).copied t ht hg] at hat
    cases hat
    exact Nat.lt_irrefl _ hlt
  · have hopened := (hrecorded.run before).opened name o ho
    obtain ⟨revision, hle, hat⟩ := hopened.loaded t ht
    refine ⟨revision, hat, Nat.lt_of_le_of_ne hle fun heq => ?_⟩
    exact hstep (hopened.rebuilt hbase (heq ▸ hat))

/-! ### A version that is lost -/

/-- A genesis state with one stack that has one version, on a chain that upgrades in every block. -/
def oneStack : Genesis where
  params := { automaticUpgradeInterval := 1 }
  catalog := [⟨"alpha", "", [], [⟨"a", "1.0.0", "a", true, false⟩]⟩]
  chainlets := []

/-- A version is added to the stack and committed between the first block's use of the tree, which
is rebuilt since none is cached, and the commit of that block. -/
def overtakenRebuild : List (Action Host.World) :=
  let parent := Host.World.parent true
  [.openContext "genesis" ⟨1⟩ ⟨0⟩,
    .perform "genesis" parent .initial (.importGenesis oneStack),
    .commit "genesis" true .listening,
    .openContext "block" ⟨1⟩ ⟨0⟩,
    .perform "block" parent .initial .beginBlock,
    .openContext "update" ⟨1⟩ ⟨0⟩,
    .perform "update" parent .initial
      (.handle (.addVersion ⟨"manager", "alpha", "b", "1.1.0", "b", false⟩)),
    .commit "update" true .listening,
    .commit "block" true .listening]

/-- The store holds the version, and the cache does not know of it. -/
theorem overtakenRebuild_answers :
    let h := (start ∅).run overtakenRebuild
    (Controller.latestCompatible h.store "alpha" "1.0.0" h.cache).1.toOption = some "1.0.0" ∧
      (Controller.latestCompatible h.store "alpha" "1.0.0" .unloaded).1.toOption =
        some "1.1.0" := by
  decide +kernel

theorem overtakenRebuild_not_inStep :
    ¬ ((start ∅).run overtakenRebuild).cache.InStep ((start ∅).run overtakenRebuild).store := by
  intro hcached
  have hunloaded : TreeCache.unloaded.InStep ((start ∅).run overtakenRebuild).store :=
    fun t ht => by cases ht
  obtain ⟨hanswer, hrebuilt⟩ := overtakenRebuild_answers
  rw [hcached.answer_eq hunloaded, hrebuilt] at hanswer
  exact absurd hanswer (by decide)

/-- **A committed version can be lost from the cache.** -/
theorem not_always_cached :
    ¬ ∀ (store : Store) (actions : List (Action Host.World)), Stocked store →
      ((start store).run actions).cache.InStep ((start store).run actions).store :=
  fun hcached => overtakenRebuild_not_inStep (hcached ∅ overtakenRebuild stocked_empty)

/-- The run installs a stale tree. -/
theorem overtakenRebuild_installsStale :
    Stocked (∅ : Store) ∧ ∃ before action, before ++ [action] <+: overtakenRebuild ∧
      ((start ∅).run before).InstallsStale action := by
  refine ⟨stocked_empty, Classical.byContradiction fun hnone => ?_⟩
  have hcached := (cached_iff stocked_empty overtakenRebuild).1.2
    fun before action hprefix hstale => hnone ⟨before, action, hprefix, hstale⟩
  exact overtakenRebuild_not_inStep (hcached overtakenRebuild (List.prefix_refl _))

end SharedHost

end Chainlets
