import Chainlets.Proofs.Coherence.Commit
import Chainlets.Proofs.SharedHost.Basic

/-!
# What a shared host records

On a shared host, a context may be committed after others have changed the stacks under it. This
module relates the flags of each staged tree to what the host records of it. A tree that was copied
from the cache carries the generation of the copy, and every commit that changes the stacks begins a
new generation; so a copy of the present generation was not overtaken. A tree that was rebuilt
carries no generation, and is in step unless it was overtaken.

## Main definitions

* `OpenContext.Recorded` — the flags of one staged tree agree with what is recorded of it.
* `SharedHost.Recorded` — those of all open contexts do.

## Main results

* `TreeCache.commit_generation` — **a commit that changes the stacks begins a new generation.**
* `SharedHost.Recorded.step` — every action keeps the records right.
-/

namespace Chainlets

/-! ### Staged trees -/

/-- A staged tree that is loaded after an operation was there before, or was loaded by it. -/
theorem Effect.loaded_cases {imports : Bool} {store : Store} {c c' : Context}
    {cache cache' : TreeCache} (h : Effect imports store c cache c' cache') {t' : VersionTree}
    (ht' : c'.tree.tree? = some t') :
    cache' = cache ∧ ((∃ t, c.tree.tree? = some t ∧ c'.tree.base? = c.tree.base?) ∨
      c.tree.tree? = none) := by
  cases h with
  | quiet same loads =>
    rcases loads with heq | ⟨hnone, -⟩
    · exact ⟨rfl, .inl ⟨t', heq ▸ ht', by rw [heq]⟩⟩
    · exact ⟨rfl, .inr hnone⟩
  | dropped changes same le tree invalidated =>
    rw [tree] at ht'
    cases ht'
  | imported allowed stocking tree =>
    rw [tree] at ht'
    cases ht'
  | mirrored stocking loads held tree follows =>
    rcases loads with rfl | ⟨hnone, -⟩
    · exact ⟨rfl, .inl ⟨_, held, by rw [tree]; rfl⟩⟩
    · exact ⟨rfl, .inr hnone⟩

/-- Committing a context leaves the cache and the stacks alone, or begins a new generation. -/
theorem TreeCache.commit_generation {cache : TreeCache} {c : Context} (hc : c.Accounted cache) :
    (cache.commit c.tree = cache ∧ c.updates.changesStacks = false) ∨
      (cache.commit c.tree).generation = cache.generation + 1 := by
  rcases TreeCache.commit_cases hc with ⟨heq, hsame⟩ | heq | ⟨t, -, -, heq⟩
  · exact .inl ⟨heq, Updates.changesStacks_eq_false_iff.2 hsame⟩
  · rw [heq]
    exact .inr rfl
  · rw [heq]
    exact .inr rfl

/-- A store whose stacks are the same shows the same tree under any updates. -/
theorem rebuild_congr_base {s s' : Store}
    (h : ∀ k, Readable.get? s' (Entry.stackMark :: k) = Readable.get? s (Entry.stackMark :: k))
    (u : Updates) :
    VersionTree.rebuild (Overlay.mk s' u) = VersionTree.rebuild (Overlay.mk s u) :=
  VersionTree.rebuild_congr fun k => by rw [Overlay.get?_eq, Overlay.get?_eq, h]

/-- Writing updates that change no stack leaves the stacks of the store alone. -/
theorem get?_write_of_unchanged {u : Updates} (h : u.changesStacks = false) (s : Store)
    (k : Bytes) : Readable.get? (s.write u) (Entry.stackMark :: k) =
      Readable.get? s (Entry.stackMark :: k) :=
  (Overlay.get?_of_write s u _).trans (Updates.changesStacks_eq_false_iff.1 h s k)

/-! ### What is recorded -/

/-- The flags of the staged tree of an open context agree with what is recorded of it. -/
structure OpenContext.Recorded (h : SharedHost) (o : OpenContext) : Prop where
  stocking : o.context.updates.Stocking
  accounted : o.context.Accounted h.cache
  /-- A tree that is loaded was loaded at some revision. -/
  loaded : ∀ t, o.context.tree.tree? = some t → ∃ revision ≤ h.revision,
    o.loadedAt? = some revision
  /-- A tree that is not loaded was loaded at none. -/
  unloaded : o.context.tree.tree? = none → o.loadedAt? = none
  /-- A tree that was rebuilt is in step unless it was overtaken. -/
  rebuilt : o.context.tree.base? = none → o.loadedAt? = some h.revision →
    o.context.InStep h.store
  /-- A copy of the present generation was not overtaken. -/
  copied : ∀ t, o.context.tree.tree? = some t →
    o.context.tree.base? = some h.cache.generation → o.loadedAt? = some h.revision

namespace OpenContext.Recorded

variable {h h' : SharedHost} {o : OpenContext}

/-- A context that was just opened. -/
theorem fresh (h : SharedHost) (height : Height) (time : Time) :
    OpenContext.Recorded h ⟨.fresh height time, none⟩ where
  stocking := stocking_empty
  accounted := Context.accounted_fresh _ height time
  loaded t ht := by cases ht
  unloaded _ := rfl
  rebuilt _ _ := Context.inStep_fresh _ height time
  copied t ht := by cases ht

/-- The record stays right while the stacks stay the same. -/
theorem mono (ho : o.Recorded h) (hstore : ∀ k, Readable.get? h'.store (Entry.stackMark :: k) =
      Readable.get? h.store (Entry.stackMark :: k))
    (hrevision : h'.revision = h.revision)
    (hgeneration : h.cache.generation ≤ h'.cache.generation) : o.Recorded h' where
  stocking := ho.stocking
  accounted := ho.accounted.mono hgeneration
  loaded t ht := by rw [hrevision]; exact ho.loaded t ht
  unloaded := ho.unloaded
  rebuilt hbase hat t ht := by
    rw [rebuild_congr_base hstore]
    exact ho.rebuilt hbase (hrevision ▸ hat) t ht
  copied t ht hbase := by
    have hle := (ho.accounted.copied _ hbase).2
    rw [hrevision]
    exact ho.copied t ht (by rw [hbase, Nat.le_antisymm hle hgeneration])

/-- The record stays right when the stacks are changed by the commit of another context. -/
theorem overtake (ho : o.Recorded h) (hrevision : h'.revision = h.revision + 1)
    (hgeneration : h'.cache.generation = h.cache.generation + 1) : o.Recorded h' where
  stocking := ho.stocking
  accounted := ho.accounted.mono (by omega)
  loaded t ht := by
    obtain ⟨revision, hle, hat⟩ := ho.loaded t ht
    exact ⟨revision, by omega, hat⟩
  unloaded := ho.unloaded
  rebuilt _ hat t ht := by
    obtain ⟨revision, hle, hat'⟩ := ho.loaded t ht
    rw [hat', Option.some.injEq] at hat
    omega
  copied t ht hbase := by
    have hle := (ho.accounted.copied _ hbase).2
    omega

end OpenContext.Recorded

namespace SharedHost

/-- The stacks of the store are in order, and the records of all open contexts are right. -/
structure Recorded (h : SharedHost) : Prop where
  stocked : Stocked h.store
  opened : ∀ name o, h.contexts.get? name = some o → o.Recorded h

variable {ω : Type} {h : SharedHost}

theorem recorded_start {store : Store} (hstore : Stocked store) : (start store).Recorded where
  stocked := hstore
  opened name o ho := by cases ho

/-- The record of a context that an operation ran in. -/
theorem Recorded.perform {imports : Bool} (hh : h.Recorded) {name : String} {o : OpenContext}
    (ho : h.contexts.get? name = some o) {context : Context} {cache : TreeCache}
    (heffect : Effect imports h.store o.context h.cache context cache) :
    OpenContext.Recorded { h with cache }
      ⟨context, loadedAt? h.revision o.loadedAt? context⟩ := by
  obtain ⟨before, before?⟩ := o
  have hbefore := hh.opened name _ ho
  have hat : ∀ t, context.tree.tree? = some t →
      loadedAt? h.revision before? context = some (before?.getD h.revision) := fun t ht => by
    simp only [loadedAt?, ht]
  refine ⟨heffect.stocking hh.stocked hbefore.stocking, heffect.accounted hbefore.accounted,
    fun t ht => ?_, fun hnone => ?_, fun hbase hat' t ht => ?_, fun t ht hbase => ?_⟩
  · refine ⟨_, ?_, hat t ht⟩
    cases before? with
    | none => exact Nat.le_refl _
    | some revision =>
      rcases heffect.loaded_cases ht with ⟨-, ⟨t', ht', -⟩ | hnone⟩
      · obtain ⟨revision', hle, heq⟩ := hbefore.loaded t' ht'
        cases heq
        exact hle
      · cases hbefore.unloaded hnone
  · change context.tree.tree? = none at hnone
    simp only [loadedAt?, hnone]
  · refine heffect.inStep_of hh.stocked hbefore.stocking (fun heq t' ht' => ?_) ?_ t ht
    · obtain ⟨revision, -, heq'⟩ := hbefore.loaded t' ht'
      rw [hat t ht] at hat'
      cases heq'
      exact hbefore.rebuilt (heq ▸ hbase) hat' t' ht'
    · intro hcopied
      rw [hbase] at hcopied
      cases hcopied
  · rw [hat t ht]
    obtain ⟨rfl, ⟨t', ht', heq⟩ | hnone⟩ := heffect.loaded_cases ht
    · have hrevision := hbefore.copied t' ht' (heq ▸ hbase)
      cases hrevision
      rfl
    · cases hbefore.unloaded hnone
      rfl

/-- The records stay right when a context is opened or changed that has a right one. -/
theorem Recorded.insert (hh : h.Recorded) {cache : TreeCache}
    (hle : h.cache.generation ≤ cache.generation) (name : String) {o : OpenContext}
    (ho : OpenContext.Recorded { h with cache } o) :
    Recorded { h with cache, contexts := h.contexts.insert name o } where
  stocked := hh.stocked
  opened name' o' ho' := by
    rcases OrderedMap.get?_insert_cases ho' with ⟨rfl, rfl⟩ | ho'
    · exact ho.mono (fun _ => rfl) rfl (Nat.le_refl _)
    · exact (hh.opened name' o' ho').mono (fun _ => rfl) rfl hle

/-- The records stay right when a context is committed, whether it changes the stacks or not. -/
theorem Recorded.commit (hh : h.Recorded) {name : String} {o : OpenContext}
    (ho : h.contexts.get? name = some o) :
    Recorded {
      store := h.store.write o.context.updates
      cache := h.cache.commit o.context.tree
      revision := if o.context.updates.changesStacks then h.revision + 1 else h.revision
      contexts := h.contexts.erase name } := by
  have hcommitted := hh.opened name o ho
  have hgeneration := TreeCache.commit_generation hcommitted.accounted
  refine ⟨hcommitted.stocking.write hh.stocked, fun name' o' ho' => ?_⟩
  have hother := hh.opened name' o' (OrderedMap.get?_of_get?_erase ho')
  cases hchanges : o.context.updates.changesStacks with
  | false =>
    refine hother.mono (get?_write_of_unchanged hchanges h.store) rfl ?_
    rcases hgeneration with ⟨heq, -⟩ | heq
    · exact Nat.le_of_eq (congrArg TreeCache.generation heq).symm
    · exact Nat.le_of_lt (Nat.lt_of_lt_of_eq (Nat.lt_succ_self _) heq.symm)
  | true =>
    refine hother.overtake rfl ?_
    rcases hgeneration with ⟨-, heq⟩ | heq
    · rw [hchanges] at heq
      cases heq
    · exact heq

/-- **Every action keeps the records right.** -/
theorem Recorded.step (hh : h.Recorded) (action : Action ω) : (h.step action).Recorded := by
  cases action with
  | openContext name height time =>
    exact hh.insert (Nat.le_refl _) name (.fresh _ height time)
  | perform name parent world request =>
    rw [SharedHost.step]
    cases hget : h.contexts.get? name with
    | none => exact hh
    | some o =>
      have heffect := Controller.perform_effect h.store parent request
        ⟨o.context, h.cache, world, []⟩
      exact hh.insert heffect.generation_le name (hh.perform hget heffect)
  | commit name logsEvents listener =>
    rw [SharedHost.step]
    cases hget : h.contexts.get? name with
    | none => exact hh
    | some o => exact hh.commit hget
  | drop name =>
    exact ⟨hh.stocked, fun name' o ho => (hh.opened name' o (OrderedMap.get?_of_get?_erase ho)).mono
      (fun _ => rfl) rfl (Nat.le_refl _)⟩
  | latestCompatible stack current =>
    exact ⟨hh.stocked, fun name o ho => (hh.opened name o ho).mono (fun _ => rfl) rfl
      (Nat.le_of_eq (Controller.latestCompatible_generation ..).symm)⟩
  | invalidate =>
    exact ⟨hh.stocked, fun name o ho => (hh.opened name o ho).mono (fun _ => rfl) rfl
      (Nat.le_succ _)⟩

end SharedHost

end Chainlets
