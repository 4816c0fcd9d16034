import Chainlets.Proofs.Coherence.Stocks
import Chainlets.Proofs.Execution.Allowed

/-!
# Quiet executions

All executions but the three that manage stacks and the import of a genesis state are *quiet*: they
write nothing under the mark of the stacks, and all they do to the version tree is to load it. What
a quiet execution sees of the stacks is the same throughout, so it does not matter when it loads the
tree.

## Main definitions

* `StagedTree.LoadsTo` — a staged tree is left as it is, or was loaded.
* `Frame.quiet`.

## Main results

* `StagedTree.load_eq_ok_iff` — where a loaded tree comes from.
* `Frame.allowsPackets_quiet`, `Frame.allowsInits_quiet` — the operations that are quiet.
* `Operation.noting_cancelUpgrade` — one that changes nothing but the events.
-/

namespace Chainlets

/-! ### Loading -/

namespace StagedTree

variable {κ : Type} [Readable κ] {cache : TreeCache} {r : κ} {before after : StagedTree}

/-- A loaded tree is a copy of the cached one, or was rebuilt from what the execution sees. -/
theorem load_eq_ok_iff : before.load cache r = .ok after ↔
    (∃ t, cache.tree? = some t ∧ before.detached = false ∧
      after = { before with tree? := some t, base? := some cache.generation }) ∨
    (∃ t, (cache.tree? = none ∨ before.detached = true) ∧ VersionTree.rebuild r = .ok t ∧
      after = { before with tree? := some t, base? := none }) := by
  have hrebuilt : (do
      let tree ← VersionTree.rebuild r
      return { before with tree? := some tree, base? := none } : Except Failure StagedTree) =
        .ok after ↔
      ∃ t, VersionTree.rebuild r = .ok t ∧
        after = { before with tree? := some t, base? := none } := by
    rw [Except.bind_eq_ok]
    constructor
    · rintro ⟨t, ht, heq⟩
      cases heq
      exact ⟨t, ht, rfl⟩
    · rintro ⟨t, ht, rfl⟩
      exact ⟨t, ht, rfl⟩
  rw [load.eq_def]
  split
  next t htree hdetached =>
    rw [htree, hdetached, Except.ok.injEq]
    simp [eq_comm]
  next hnot =>
    have hrebuild : cache.tree? = none ∨ before.detached = true := by
      cases htree : cache.tree? with
      | none => exact .inl rfl
      | some t => exact .inr (Bool.of_not_eq_false fun h => hnot t htree h)
    rw [hrebuilt]
    constructor
    · rintro ⟨t, ht, rfl⟩
      exact .inr ⟨t, hrebuild, ht, rfl⟩
    · rintro (⟨t, htree, hdetached, -⟩ | ⟨t, -, ht, rfl⟩)
      · exact absurd hdetached (hnot t htree)
      · exact ⟨t, ht, rfl⟩

/-- Loading changes only the tree and where it comes from. -/
theorem load_ok (h : before.load cache r = .ok after) :
    (∃ t, after.tree? = some t) ∧ after.detached = before.detached ∧
      after.changes = before.changes := by
  rcases load_eq_ok_iff.1 h with ⟨t, -, -, rfl⟩ | ⟨t, -, -, rfl⟩
  · exact ⟨⟨t, rfl⟩, rfl, rfl⟩
  · exact ⟨⟨t, rfl⟩, rfl, rfl⟩

/-- What is loaded depends on the tree that would be rebuilt. -/
theorem load_congr {κ' : Type} [Readable κ'] {r' : κ'}
    (h : VersionTree.rebuild r' = VersionTree.rebuild r) :
    before.load cache r' = before.load cache r := by
  rw [load.eq_def, load.eq_def, h]

/-- A staged tree is left as it is, or was loaded. -/
def LoadsTo (cache : TreeCache) (r : κ) (before after : StagedTree) : Prop :=
  after = before ∨ before.tree? = none ∧ before.load cache r = .ok after

theorem LoadsTo.detached_eq (h : LoadsTo cache r before after) :
    after.detached = before.detached := by
  rcases h with rfl | ⟨-, h⟩
  · rfl
  · exact (load_ok h).2.1

theorem LoadsTo.changes_eq (h : LoadsTo cache r before after) :
    after.changes = before.changes := by
  rcases h with rfl | ⟨-, h⟩
  · rfl
  · exact (load_ok h).2.2

theorem LoadsTo.congr {κ' : Type} [Readable κ'] {r' : κ'} (h : LoadsTo cache r before after)
    (hr : VersionTree.rebuild r' = VersionTree.rebuild r) : LoadsTo cache r' before after :=
  h.imp_right fun ⟨hnone, hload⟩ => ⟨hnone, (load_congr hr).trans hload⟩

theorem LoadsTo.trans {latest : StagedTree} (h : LoadsTo cache r before after)
    (h' : LoadsTo cache r after latest) : LoadsTo cache r before latest := by
  rcases h with rfl | ⟨hnone, hload⟩
  · exact h'
  · rcases h' with rfl | ⟨hnone', -⟩
    · exact .inr ⟨hnone, hload⟩
    · obtain ⟨⟨t, ht⟩, -⟩ := load_ok hload
      rw [ht] at hnone'
      cases hnone'

end StagedTree

/-! ### The frame -/

/-- The stacks are the same, and the version tree is left as it is or was loaded. -/
def Frame.quiet {ω : Type} : Frame ω where
  Rel s m m' :=
    SameStacks m.context.updates m'.context.updates ∧
      StagedTree.LoadsTo s.cache (Overlay.mk s.store m.context.updates) m.context.tree
        m'.context.tree
  refl _ _ := ⟨SameStacks.refl _, .inl rfl⟩
  trans {s _ _ _} h h' :=
    ⟨h.1.trans h'.1, h.2.trans (h'.2.congr (h.1.rebuild s.store).symm)⟩

namespace Execution

variable {ω α : Type}

theorem quiet_of_noting {x : Execution ω α} (h : Keeps Frame.noting x) : Keeps Frame.quiet x :=
  h.mono fun {s m m'} hnoting => by
    have heq : m'.context = { m.context with events := m'.context.events } := hnoting
    change SameStacks _ _ ∧ _
    rw [heq]
    exact Frame.quiet.refl s m

theorem quiet_of_outside {x : Execution ω α} (h : Keeps Frame.outside x) : Keeps Frame.quiet x :=
  quiet_of_noting (noting_of_outside h)

/-- A quiet part of which nothing is kept is quiet, though the tree that it loaded stays. -/
theorem quiet_atomic {x : Execution ω α} (h : Keeps Frame.quiet x) :
    Keeps Frame.quiet x.atomic := by
  refine h.atomic fun {s m m'} hrel => ⟨SameStacks.refl _, ?_⟩
  rw [Context.rollback]
  simp only [hrel.2.changes_eq, if_true]
  exact hrel.2

/-- A write elsewhere than under the mark of the stacks is quiet. -/
theorem quiet_put [Stored.Format α] (entry : Entry) (hmark : entry.mark ≠ Entry.stackMark)
    (a : α) : Keeps Frame.quiet (put entry a : Execution ω Unit) := by
  rw [put]
  split
  · exact fun s m => ⟨SameStacks.insert _ (Entry.key_ne hmark), .inl rfl⟩
  · exact Keeps.fail _

theorem quiet_drop (entry : Entry) (hmark : entry.mark ≠ Entry.stackMark) :
    Keeps Frame.quiet (drop entry : Execution ω Unit) :=
  fun _ _ => ⟨SameStacks.delete _ (Entry.key_ne hmark), .inl rfl⟩

theorem quiet_emit (event : Event) : Keeps Frame.quiet (emit event : Execution ω Unit) :=
  quiet_of_noting (noting_emit event)

theorem quiet_putChainlet (chainlet : Chainlet) :
    Keeps Frame.quiet (putChainlet chainlet : Execution ω Unit) :=
  quiet_put (.chainlet _) (show Entry.chainletMark ≠ Entry.stackMark by decide) chainlet

theorem quiet_putChainletCount (count : UInt64) :
    Keeps Frame.quiet (putChainletCount count : Execution ω Unit) :=
  quiet_put .chainletCount (show Entry.chainletCountMark ≠ Entry.stackMark by decide) count

theorem quiet_putParams (params : Params) :
    Keeps Frame.quiet (putParams params : Execution ω Unit) :=
  quiet_put .params (show Entry.paramsMark ≠ Entry.stackMark by decide) params

theorem quiet_putPendingInit (chainId : String) (consumer : ConsumerId) :
    Keeps Frame.quiet (putPendingInit chainId consumer : Execution ω Unit) :=
  quiet_put (.pendingInit _) (show Entry.pendingInitMark ≠ Entry.stackMark by decide) consumer

/-- How loading the tree ends: it was loaded, or it is now, or it cannot be. -/
theorem loadTree_cases (s : Surroundings ω) (m : Machine ω) :
    (∃ staged log, loadTree.run s m = (.ok (), { m with
        context := { m.context with tree := staged }, log }) ∧
      StagedTree.LoadsTo s.cache (Overlay.mk s.store m.context.updates) m.context.tree staged ∧
      ∃ t, staged.tree? = some t) ∨
    ∃ failure, loadTree.run s m = (.error failure, m) ∧ m.context.tree.tree? = none ∧
      m.context.tree.load s.cache (Overlay.mk s.store m.context.updates) = .error failure := by
  rw [run, loadTree]
  cases htree : m.context.tree.tree? with
  | some t => exact .inl ⟨m.context.tree, m.log, rfl, .inl rfl, t, htree⟩
  | none =>
    cases hload : m.context.tree.load s.cache (Overlay.mk s.store m.context.updates) with
    | error failure => exact .inr ⟨failure, rfl, rfl, rfl⟩
    | ok staged =>
      exact .inl ⟨staged, m.log ++ if staged.base?.isNone then [.treeRebuilt] else [], rfl,
        .inr ⟨htree, hload⟩, (StagedTree.load_ok hload).1⟩

theorem quiet_loadTree : Keeps Frame.quiet (loadTree : Execution ω Unit) := fun s m => by
  rcases loadTree_cases s m with ⟨staged, log, hrun, hloads, -⟩ | ⟨failure, hrun, -⟩
  · rw [hrun]
    exact ⟨SameStacks.refl _, hloads⟩
  · rw [hrun]
    exact Frame.quiet.refl s m

theorem quiet_tree : Keeps Frame.quiet (tree : Execution ω VersionTree) :=
  quiet_loadTree.bind fun _ => still_context.of_still.bind fun _ => Keeps.pure _

end Execution

/-! ### Operations -/

open Execution

namespace Frame

variable {ω : Type}

theorem allowsRecords_quiet : (quiet : Frame ω).AllowsRecords where
  log entry := quiet_of_outside (outside_log entry)
  emit _ _ := quiet_emit _
  putChainlet := quiet_putChainlet
  putChainletCount := quiet_putChainletCount
  putPendingInit := quiet_putPendingInit
  tree := quiet_tree

theorem allowsCalls_quiet : (quiet : Frame ω).AllowsCalls :=
  .of_outside allowsRecords_quiet quiet_of_outside quiet_atomic

/-- Sending a packet is quiet. -/
theorem allowsPackets_quiet : (quiet : Frame ω).AllowsPackets :=
  { allowsCalls_quiet with
    sendPacket := fun _ _ _ _ _ => quiet_of_outside (outside_attempt _)
    notice := fun _ => quiet_emit _ }

/-- Initializing a consumer is quiet. -/
theorem allowsInits_quiet : (quiet : Frame ω).AllowsInits :=
  { allowsCalls_quiet with
    sendChanges := fun _ _ => quiet_of_outside (outside_attempt _)
    dropPendingInit := fun chainId =>
      quiet_drop (.pendingInit chainId) (show Entry.pendingInitMark ≠ Entry.stackMark by decide)
    init := fun _ => quiet_emit _
    housekeeping := fun _ _ => quiet_of_outside (outside_attempt _) }

end Frame

/-- A request for cancellation changes nothing but the events. -/
theorem Operation.noting_cancelUpgrade {ω : Type} (msg : CancelUpgrade) :
    Keeps Frame.noting (cancelUpgrade msg : Execution ω Unit) := by
  refine still_params.of_still.bind fun params => ?_
  refine (still_chainlet _).of_still.bind fun chainlet => ?_
  refine (still_requireMaintainer _ _).of_still.bind fun _ => ?_
  refine (still_step _ _).of_still.bind fun upgrade => ?_
  refine (still_consumerClient _).of_still.bind fun client => ?_
  refine (still_openRoute _ _).of_still.bind fun latest => ?_
  refine (still_liftVersion _).of_still.bind fun planName => ?_
  refine (noting_of_outside (outside_send _ _ _ _)).bind fun _ => ?_
  exact noting_emit _

end Chainlets
