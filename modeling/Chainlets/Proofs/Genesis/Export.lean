import Chainlets.Proofs.Registry.Genesis
import Chainlets.Proofs.Store.Variables

/-!
# What is exported

The state of a chain is exported as a genesis state: the parameters, the stacks and the chainlets,
in the order of their names. Who waits for first validators is not part of it. So the registry of
what is exported is the registry that it is exported of, but for those who wait; and what is
exported of the registry of a genesis state is that genesis state in another order.

A well-formed registry has everything that the check of a genesis state asks for. Its names are
unique because everything is stored under its own, and the other parts of the check are parts of the
invariant. What is exported can also be stored again, since it has been.

An import that passes the check can fail in one way only: a text or a list may be too long to be
stored.

## Main definitions

* `Genesis.Storable` — nothing in a genesis state is too long to be stored.
* `Genesis.Sorts` — the same genesis state in the order of names and chain ids.
* `Registry.genesis` — what is exported of a registry.

## Main results

* `Registry.ShownBy.ofState_eq_ok_iff` — **what is exported of a state that shows a registry.**
* `Registry.WellFormed.check_genesis` — **what is exported of a well-formed registry passes the
  check.**
* `Registry.WellFormed.registry_genesis` — **its registry is the one that it is exported of**, but
  for those who wait.
* `Genesis.Checked.sorts` — what is exported of the registry of a genesis state.
* `Operation.importGenesis_storesIf` — **an import succeeds if everything can be stored.**
-/

namespace Chainlets

open Execution

/-! ### From a registry to a genesis state -/

namespace Genesis

/-- No text and no list of a genesis state is too long to be stored. -/
structure Storable (genesis : Genesis) : Prop where
  catalog : ∀ stack ∈ genesis.catalog, Stored.fits stack = true
  chainlets : ∀ c ∈ genesis.chainlets, Stored.fits c = true

/-- A genesis state is another one in the order of the bytes of names and of chain ids, each of
which it has once. -/
structure Sorts (sorted genesis : Genesis) : Prop where
  params : sorted.params = genesis.params
  catalog : sorted.catalog.Perm genesis.catalog
  names : sorted.catalog.Pairwise fun a b =>
    compare (Utf8.encode a.name) (Utf8.encode b.name) = .lt
  chainlets : sorted.chainlets.Perm genesis.chainlets
  chainIds : sorted.chainlets.Pairwise fun a b =>
    compare (Utf8.encode a.chainId) (Utf8.encode b.chainId) = .lt

end Genesis

namespace Registry

/-- What is exported of a registry. -/
def genesis (reg : Registry) (params : Params) : Genesis where
  params := params
  catalog := reg.catalog.toList.map (·.2)
  chainlets := reg.chainlets.toList.map (·.2)

variable {reg : Registry} {params : Params}

theorem Filed.named (h : reg.Filed) : reg.Named where
  catalog hget := (h.catalog hget).1
  chainlets hget := h.chainlets _ _ hget

/-- **What is exported of a state that shows a registry**: nothing before there are parameters. -/
theorem ShownBy.ofState_eq_ok_iff {κ : Type} [Readable κ] [LawfulReadable κ] {r : κ}
    (h : reg.ShownBy r) {exported : Genesis} : Genesis.ofState r = .ok exported ↔
      ∃ params, reg.params? = some params ∧ exported = reg.genesis params := by
  have hread := Readings.readFrom_ofRegistry h
  rw [Genesis.ofState, hread.params, hread.allStacks, hread.chainlets]
  cases hparams? : reg.params? with
  | none =>
    rw [show (Readings.ofRegistry reg).params? = none from hparams?]
    exact ⟨nofun, nofun⟩
  | some params =>
    have hok : (Readings.ofRegistry reg).params?.elim
        (Except.error (StorageFault.missing .params)) .ok = .ok params := by
      rw [show (Readings.ofRegistry reg).params? = some params from hparams?]
      rfl
    rw [hok]
    constructor
    · rintro ⟨⟩
      exact ⟨params, rfl, rfl⟩
    · rintro ⟨_, ⟨⟩, rfl⟩
      rfl

/-- Whatever is exported of a state was stored in it. -/
theorem ShownBy.storable {κ : Type} [Readable κ] {r : κ} (h : reg.ShownBy r) (params : Params) :
    (reg.genesis params).Storable where
  catalog stack hstack := by
    obtain ⟨name, hget⟩ := OrderedMap.mem_values_iff.1 hstack
    exact h.catalog.fits hget
  chainlets c hc := by
    obtain ⟨chainId, hget⟩ := OrderedMap.mem_values_iff.1 hc
    exact h.chainlets.fits hget

/-- A chainlet that runs a version of the catalog runs one of the stacks that are exported. -/
theorem Filed.runsKnownVersion (h : reg.Filed) {c : Chainlet}
    (hregistered : Catalog.Registers reg.catalog c.stack c.version) :
    Genesis.runsKnownVersion (reg.catalog.toList.map (·.2)) c = true := by
  obtain ⟨found, hget, hversion⟩ := hregistered
  rw [Genesis.runsKnownVersion]
  split
  next stack hfind =>
    have hname : stack.name = c.stack := by simpa using List.find?_some hfind
    obtain ⟨name, hget'⟩ := OrderedMap.mem_values_iff.1 (List.mem_of_find?_eq_some hfind)
    obtain rfl : c.stack = name := hname.symm.trans (h.catalog hget').1
    obtain rfl : found = stack := Option.some.inj (hget.symm.trans hget')
    exact hversion
  next hfind =>
    have hmem : found ∈ reg.catalog.toList.map (·.2) := OrderedMap.mem_values_iff.2 ⟨_, hget⟩
    exact absurd (by simpa using (h.catalog hget).1) (List.find?_eq_none.1 hfind found hmem)

theorem WellFormed.checked_genesis (h : reg.WellFormed) (hparams : reg.params? = some params) :
    (reg.genesis params).Checked where
  catalog stack hstack := by
    obtain ⟨name, hget⟩ := OrderedMap.mem_values_iff.1 hstack
    exact (h.catalog hget).2
  names := OrderedMap.distinct_values h.filed.named.catalog
  count := by
    have hlimit := h.limit params hparams
    rw [h.count] at hlimit
    rwa [genesis, List.length_map]
  chainlets c hc := by
    obtain ⟨chainId, hget⟩ := OrderedMap.mem_values_iff.1 hc
    have hsound := (h.chainlets chainId c hget).2
    exact ⟨hsound.valid, h.filed.runsKnownVersion hsound.registered⟩
  chainIds := OrderedMap.distinct_values h.filed.named.chainlets

/-- **What is exported of a well-formed registry passes the check.** -/
theorem WellFormed.check_genesis (h : reg.WellFormed) (hparams : reg.params? = some params) :
    (reg.genesis params).check = .ok () :=
  Genesis.check_eq_ok_iff.2 (h.checked_genesis hparams)

/-- **The registry of what is exported of a registry** has the same stacks and chainlets, counts the
chainlets again, and nobody waits in it. -/
theorem Filed.registry_genesis (h : reg.Filed) (params : Params) :
    (reg.genesis params).registry = { reg with
      waiting := ∅, count := .ofNat reg.chainlets.toList.length, params? := some params } := by
  have hcatalog := OrderedMap.fileBy_values (f := Stack.name) h.named.catalog
  have hchainlets := OrderedMap.fileBy_values (f := Chainlet.chainId) h.named.chainlets
  rw [Genesis.registry, genesis, hcatalog, hchainlets, List.length_map]

/-- The chainlets of a well-formed registry are counted already. -/
theorem WellFormed.registry_genesis (h : reg.WellFormed) (hparams : reg.params? = some params) :
    (reg.genesis params).registry = { reg with waiting := ∅ } := by
  rw [h.filed.registry_genesis, ← h.count, UInt64.ofNat_toNat, ← hparams]

end Registry

/-! ### From a genesis state to a registry and back -/

/-- **What is exported of the registry of a genesis state** is the genesis state, sorted. -/
theorem Genesis.Checked.sorts {genesis : Genesis} (h : genesis.Checked) :
    (genesis.registry.genesis genesis.params).Sorts genesis where
  params := rfl
  catalog := OrderedMap.values_fileBy_perm h.names
  names := (Readings.listed_ofRegistry h.filed.named).allStacks.ascending
  chainlets := OrderedMap.values_fileBy_perm h.chainIds
  chainIds := (Readings.listed_ofRegistry h.filed.named).chainlets.ascending

/-! ### When an import succeeds -/

namespace Execution

variable {ω α β : Type}

/-- An execution succeeds if something is true, and otherwise fails because a value is too long to
be stored. -/
def StoresIf (x : Execution ω α) (storable : Prop) : Prop :=
  ∀ s m, (storable → ∃ a m', x.run s m = (.ok a, m')) ∧
    (¬ storable → ∃ entry m', x.run s m = (.error (.storage (.unencodable entry)), m'))

theorem StoresIf.congr {x : Execution ω α} {p q : Prop} (hx : x.StoresIf p) (h : q ↔ p) :
    x.StoresIf q := by
  rwa [StoresIf, h]

theorem storesIf_pure (a : α) : (pure a : Execution ω α).StoresIf True := fun _ m =>
  ⟨fun _ => ⟨a, m, rfl⟩, fun h => absurd trivial h⟩

theorem storesIf_put {γ : Type} [Stored.Format γ] (entry : Entry) (v : γ) :
    (put entry v : Execution ω Unit).StoresIf (Stored.fits v = true) := fun s m => by
  rw [put]
  refine ⟨fun h => ?_, fun h => ?_⟩
  · rw [if_pos h]
    exact ⟨_, _, rfl⟩
  · rw [if_neg h]
    exact ⟨entry, m, rfl⟩

theorem storesIf_putStack (stack : Stack) :
    (putStack stack : Execution ω Unit).StoresIf (Stored.fits stack = true) :=
  storesIf_put (.stack stack.name) stack

theorem storesIf_putChainlet (c : Chainlet) :
    (putChainlet c : Execution ω Unit).StoresIf (Stored.fits c = true) :=
  storesIf_put (.chainlet c.chainId) c

/-- Parameters and numbers have a fixed length. -/
theorem storesIf_putParams (params : Params) :
    (putParams params : Execution ω Unit).StoresIf True :=
  (storesIf_put .params params).congr (iff_of_true trivial rfl)

theorem storesIf_putChainletCount (count : UInt64) :
    (putChainletCount count : Execution ω Unit).StoresIf True :=
  (storesIf_put .chainletCount count).congr (iff_of_true trivial rfl)

theorem StoresIf.bind {x : Execution ω α} {f : α → Execution ω β} {p q : Prop}
    (hx : x.StoresIf p) (hf : ∀ a, (f a).StoresIf q) : (x >>= f).StoresIf (p ∧ q) := fun s m => by
  by_cases hp : p
  · obtain ⟨a, m', hrun⟩ := (hx s m).1 hp
    rw [run_bind_of_ok hrun]
    exact ⟨fun h => (hf a s m').1 h.2, fun h => (hf a s m').2 fun hq => h ⟨hp, hq⟩⟩
  · obtain ⟨entry, m', hrun⟩ := (hx s m).2 hp
    rw [run_bind_of_error hrun]
    exact ⟨fun h => absurd h.1 hp, fun _ => ⟨entry, m', rfl⟩⟩

theorem storesIf_forM {f : β → Execution ω Unit} {p : β → Prop} (h : ∀ b, (f b).StoresIf (p b))
    (l : List β) : (l.forM f).StoresIf (∀ b ∈ l, p b) := by
  induction l with
  | nil => exact (storesIf_pure ()).congr (by simp)
  | cons b l ih => exact ((h b).bind fun _ => ih).congr List.forall_mem_cons

end Execution

/-- **An import of a genesis state that passes the check succeeds if everything in it can be
stored**, and otherwise fails for that reason. -/
theorem Operation.importGenesis_storesIf {ω : Type} {genesis : Genesis}
    (hcheck : genesis.check = .ok ()) :
    (importGenesis genesis : Execution ω Unit).StoresIf genesis.Storable := by
  have hchecked : (liftM genesis.check : Execution ω Unit).StoresIf True := fun _ m => by
    rw [hcheck]
    exact ⟨fun _ => ⟨(), m, rfl⟩, fun h => absurd trivial h⟩
  have hstacks := storesIf_forM (storesIf_putStack (ω := ω)) genesis.catalog
  have hchainlets := storesIf_forM (storesIf_putChainlet (ω := ω)) genesis.chainlets
  have himport : (importGenesis genesis : Execution ω Unit).StoresIf (True ∧ True ∧
      (∀ stack ∈ genesis.catalog, Stored.fits stack = true) ∧
        (∀ c ∈ genesis.chainlets, Stored.fits c = true) ∧ True ∧ True) := by
    refine hchecked.bind fun _ => (storesIf_putParams _).bind fun _ => ?_
    refine hstacks.bind fun _ => hchainlets.bind fun _ => ?_
    refine (storesIf_putChainletCount _).bind fun _ => ?_
    exact fun _ _ => ⟨fun _ => ⟨(), _, rfl⟩, fun h => absurd trivial h⟩
  refine himport.congr ⟨fun h => ?_, fun ⟨_, _, hcatalog, hchainlets, _⟩ => ?_⟩
  · exact ⟨trivial, trivial, h.catalog, h.chainlets, trivial, trivial⟩
  · exact ⟨hcatalog, hchainlets⟩

end Chainlets
