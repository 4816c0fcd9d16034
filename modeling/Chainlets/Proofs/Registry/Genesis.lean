import Chainlets.Proofs.Registry.Ensures
import Chainlets.Proofs.Registry.Moves

/-!
# The registry of a genesis state

Over an empty registry, the import of a genesis state leaves the registry that the genesis state
describes. The check that the import makes says that names are unique, that versions are versions
and can be told apart, and that chainlets run versions that are there. It says nothing of consumers
and pending upgrades, so a genesis state is *well-formed* if these are in order too.

## Main definitions

* `Genesis.WellFormed` — it passes the check, and consumers and pending upgrades are in order.
* `Genesis.registry` — the registry that a genesis state describes.

## Main results

* `Genesis.WellFormed.registry` — **the registry of a well-formed genesis state is well-formed.**
* `Operation.importGenesis_ensures` — the import over an empty registry.
-/

namespace Chainlets

open Execution

namespace Genesis

/-- A genesis state passes the check, and its consumers and pending upgrades are in order. -/
structure WellFormed (genesis : Genesis) : Prop where
  /-- It passes the check. -/
  accepted : genesis.check = .ok ()
  /-- Every chainlet is a consumer exactly if it has a name as one. -/
  consumer : ∀ c ∈ genesis.chainlets, c.isConsumer = true ↔ c.consumer?.isSome = true
  /-- Every pending upgrade is one of a consumer, to a version of its stack, and a breaking one. -/
  upgrade : ∀ c ∈ genesis.chainlets, ∀ upgrade, c.upgrade? = some upgrade → c.isConsumer = true ∧
    (∃ stack ∈ genesis.catalog, stack.name = c.stack ∧
      (stack.version? upgrade.targetVersion).isSome = true) ∧
    Upgrade.kind c.version upgrade.targetVersion = .ok .breaking

/-- The registry that a genesis state describes. Nobody waits in it. -/
def registry (genesis : Genesis) : Registry where
  catalog := OrderedMap.fileBy (·.name) genesis.catalog
  chainlets := OrderedMap.fileBy (·.chainId) genesis.chainlets
  waiting := ∅
  count := .ofNat genesis.chainlets.length
  params? := some genesis.params

variable {genesis : Genesis}

/-- A version of a stack of the genesis state is one of its registry. -/
theorem Checked.registers (h : genesis.Checked) {name version : String} {stack : Stack}
    (hstack : stack ∈ genesis.catalog) (hname : stack.name = name)
    (hversion : (stack.version? version).isSome = true) :
    Catalog.Registers genesis.registry.catalog name version :=
  ⟨stack, (OrderedMap.get?_fileBy_eq_some_iff h.names).2 ⟨hstack, hname⟩, hversion⟩

/-- A chainlet that passes the check runs a version of the registry. -/
theorem Checked.runs (h : genesis.Checked) {c : Chainlet} (hc : c ∈ genesis.chainlets) :
    Catalog.Registers genesis.registry.catalog c.stack c.version := by
  have hknown := (h.chainlets c hc).2
  rw [runsKnownVersion] at hknown
  split at hknown
  next stack hfind =>
    have hname : stack.name = c.stack := by simpa using List.find?_some hfind
    exact h.registers (List.mem_of_find?_eq_some hfind) hname hknown
  next => cases hknown

/-- The number of chainlets is a word, since the greatest number that is allowed is. -/
theorem Checked.count_eq (h : genesis.Checked) :
    genesis.registry.count.toNat = genesis.chainlets.length := by
  have hmax := genesis.params.maxChainlets.toNat_lt
  have hcount := h.count
  exact UInt64.toNat_ofNat_of_lt' (by change genesis.chainlets.length < 2 ^ 64; omega)

/-- In the registry of a genesis state that passes its check, everything is stored under its own
name. -/
theorem Checked.filed (h : genesis.Checked) : genesis.registry.Filed where
  catalog {name stack} hget := by
    obtain ⟨hstack, hname⟩ := (OrderedMap.get?_fileBy_eq_some_iff h.names).1 hget
    exact ⟨hname, h.catalog stack hstack⟩
  chainlets chainId c hget := ((OrderedMap.get?_fileBy_eq_some_iff h.chainIds).1 hget).2

/-- **The registry of a well-formed genesis state is well-formed.** -/
theorem WellFormed.registry (h : genesis.WellFormed) : genesis.registry.WellFormed where
  catalog {name stack} hget := by
    have hchecked := check_ok h.accepted
    obtain ⟨hstack, hname⟩ := (OrderedMap.get?_fileBy_eq_some_iff hchecked.names).1 hget
    exact ⟨hname, hchecked.catalog stack hstack⟩
  chainlets chainId c hget := by
    have hchecked := check_ok h.accepted
    obtain ⟨hc, hid⟩ := (OrderedMap.get?_fileBy_eq_some_iff hchecked.chainIds).1 hget
    refine ⟨hid, (hchecked.chainlets c hc).1, hchecked.runs hc, h.consumer c hc, ?_⟩
    intro upgrade hupgrade
    obtain ⟨hconsumer, ⟨stack, hstack, hname, hversion⟩, hbreaking⟩ :=
      h.upgrade c hc upgrade hupgrade
    exact ⟨hconsumer, hchecked.registers hstack hname hversion, hbreaking⟩
  waiting chainId consumer hwaiting := by cases hwaiting
  count := by
    have hchecked := check_ok h.accepted
    rw [hchecked.count_eq]
    exact (OrderedMap.length_fileBy hchecked.chainIds).symm
  limit := by
    rintro _ ⟨⟩
    have hchecked := check_ok h.accepted
    rw [hchecked.count_eq]
    exact hchecked.count

end Genesis

/-! ### Importing -/

namespace Registry

/-- Stacks that are written one after the other. -/
theorem foldl_putStack (reg : Registry) (l : List Stack) :
    l.foldl putStack reg =
      { reg with catalog := l.foldl (fun m stack => m.insert stack.name stack) reg.catalog } := by
  induction l generalizing reg with
  | nil => rfl
  | cons stack l ih => exact ih (reg.putStack stack)

theorem foldl_putChainlet (reg : Registry) (l : List Chainlet) :
    l.foldl putChainlet reg =
      { reg with chainlets := l.foldl (fun m c => m.insert c.chainId c) reg.chainlets } := by
  induction l generalizing reg with
  | nil => rfl
  | cons c l ih => exact ih (reg.putChainlet c)

end Registry

/-- **The import of a genesis state over an empty registry** leaves the registry of that state. -/
theorem Operation.importGenesis_ensures {ω : Type} (genesis : Genesis) :
    (importGenesis genesis : Execution ω Unit).Ensures Registry.empty fun _ reg' =>
      reg' = genesis.registry := by
  refine (reads_liftFailure _).bind fun _ _ => ?_
  refine (writes_putParams genesis.params).bind fun _ => ?_
  refine (writes_forM (fun _ stack => writes_putStack stack) genesis.catalog _).bind fun _ => ?_
  refine (writes_forM (fun _ c => writes_putChainlet c) genesis.chainlets _).bind fun _ => ?_
  refine (writes_putChainletCount _).bind fun _ => ?_
  refine .of_unwritten (unwritten_discardTree.bind fun _ => ?_) fun _ => ?_
  · exact unwritten_of_outside (outside_log _)
  · rw [Registry.foldl_putChainlet, Registry.foldl_putStack]
    rfl

/-- What a genesis state leaves in the first context. -/
theorem Operation.shownBy_importGenesis {ω : Type} (genesis : Genesis) (parent : Parent ω)
    (cache : TreeCache) (height : Height) (time : Time) (w : ω) (log : List LogEntry)
    (h : ((importGenesis genesis).run ⟨∅, parent, cache⟩ ⟨.fresh height time, w, log⟩).1 = .ok ()) :
    genesis.registry.ShownBy (Overlay.mk ∅ ((importGenesis genesis).run ⟨∅, parent, cache⟩
      ⟨.fresh height time, w, log⟩).2.context.updates) := by
  obtain ⟨_, hshows, rfl⟩ := importGenesis_ensures genesis ⟨∅, parent, cache⟩
    ⟨.fresh height time, w, log⟩ _ _ Registry.ShownBy.empty.opened (Prod.ext h rfl)
  exact hshows

end Chainlets
