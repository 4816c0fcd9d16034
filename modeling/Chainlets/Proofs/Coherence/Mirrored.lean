import Chainlets.Proofs.Coherence.Quiet
import Chainlets.Proofs.Genesis.Check

/-!
# Executions that change the stacks

Three executions write a stack and change the version tree along with it, and the import of a
genesis state writes many stacks and drops the tree. This module says what they leave when they
succeed, and, for all four, that a failure shows in the number of changes if it leaves a tree that
was changed.

The tree is loaded after the stack is written. If it is a copy of the cached one it is the tree of
the old stacks, and if it is rebuilt it is already that of the new ones; the change leaves the tree
of the new stacks either way.

## Main definitions

* `Mirrors` — a stack was written and the tree changed along with it.
* `Execution.FailsVisibly` — a failure leaves the tree alone, or counts a change.

## Main results

* `Execution.changeTree_cases` — how a change of the tree ends.
* `Operation.createStack_mirrors`, `Operation.addVersion_mirrors`, `Operation.disableVersion_cases`.
* `Operation.importGenesis_ok`.
-/

namespace Chainlets

open Execution

variable {ω : Type} {s : Surroundings ω} {m m' : Machine ω}

/-! ### Writing a stack and changing the tree -/

/-- A well-formed stack was written, and the tree was loaded and changed along with it. -/
structure Mirrors (s : Surroundings ω) (m m' : Machine ω) : Prop where
  /-- Stores stay stocked. -/
  stocking : Stocked s.store → m.context.updates.Stocking → m'.context.updates.Stocking
  /-- The tree was loaded, handed out, and put back changed. Over stocked states, the tree of the
  old stacks and that of the new ones both turn into that of the new ones. -/
  tree : ∃ loaded t t', StagedTree.LoadsTo s.cache (Overlay.mk s.store m'.context.updates)
      m.context.tree loaded ∧ loaded.tree? = some t ∧
    m'.context.tree = { loaded.handOut with tree? := some t' } ∧
    (Stocked (Overlay.mk s.store m.context.updates) →
      VersionTree.rebuild (Overlay.mk s.store m.context.updates) = .ok t ∨
        VersionTree.rebuild (Overlay.mk s.store m'.context.updates) = .ok t →
      VersionTree.rebuild (Overlay.mk s.store m'.context.updates) = .ok t')

namespace Execution

theorem put_eq_ok {α : Type} [Stored.Format α] {entry : Entry} {a : α} {u : Unit} :
    (put entry a).run s m = (.ok u, m') ↔ Stored.fits a = true ∧
      m' = { m with context :=
        { m.context with updates := m.context.updates.insert entry.key (Stored.encode a) } } := by
  rw [put]
  split
  next h => simp [h, eq_comm]
  next h => simp [h]

/-- How a change of the tree ends: it cannot be loaded, or it is loaded, handed out and changed. -/
theorem changeTree_cases (f : VersionTree → Except VersionError VersionTree) (s : Surroundings ω)
    (m : Machine ω) :
    (∃ failure, (changeTree f).run s m = (.error failure, m)) ∨
    ∃ loaded t log, StagedTree.LoadsTo s.cache (Overlay.mk s.store m.context.updates)
        m.context.tree loaded ∧ loaded.tree? = some t ∧
      ((∃ t', f t = .ok t' ∧ (changeTree f).run s m = (.ok (), { m with
          context := { m.context with tree := { loaded.handOut with tree? := some t' } }, log })) ∨
        ∃ cause, f t = .error cause ∧ (changeTree f).run s m = (.error (.badVersion cause), { m with
          context := { m.context with tree := loaded.handOut }, log })) := by
  rcases loadTree_cases s m with ⟨loaded, log, hrun, hloads, t, ht⟩ | ⟨failure, hrun, -⟩
  · refine .inr ⟨loaded, t, log, hloads, ht, ?_⟩
    have htree : (tree : Execution ω VersionTree).run s m = (.ok t, { m with
        context := { m.context with tree := loaded }, log }) := by
      rw [tree, run_bind_of_ok hrun]
      change (Except.ok (loaded.tree?.getD ∅), _) = _
      rw [ht]
      rfl
    rw [changeTree, run_bind_of_ok htree, run_bind_of_ok (run_modifyContext _ s _)]
    cases hf : f t with
    | ok t' => exact .inl ⟨t', rfl, rfl⟩
    | error cause => exact .inr ⟨cause, rfl, rfl⟩
  · refine .inl ⟨failure, ?_⟩
    rw [changeTree, run_bind_of_error]
    exact run_bind_of_error hrun

/-- A change of the tree that succeeded. -/
theorem changeTree_eq_ok {f : VersionTree → Except VersionError VersionTree} {u : Unit}
    (h : (changeTree f).run s m = (.ok u, m')) :
    ∃ loaded t t', StagedTree.LoadsTo s.cache (Overlay.mk s.store m.context.updates)
        m.context.tree loaded ∧ loaded.tree? = some t ∧ f t = .ok t' ∧
      m'.context = { m.context with tree := { loaded.handOut with tree? := some t' } } := by
  rcases changeTree_cases f s m with
    ⟨failure, hrun⟩ | ⟨loaded, t, log, hloads, ht, ⟨t', hf, hrun⟩ | ⟨cause, hf, hrun⟩⟩
  · rw [hrun] at h
    cases h
  · rw [hrun] at h
    cases h
    exact ⟨loaded, t, t', hloads, ht, hf, rfl⟩
  · rw [hrun] at h
    cases h

end Execution

/-- What a stack is, seen from the catalog in which it takes its place, is enough to know that the
tree was changed along with it. -/
theorem mirrors_of_putStack {stack : Stack} {f : VersionTree → Except VersionError VersionTree}
    {m₁ m₂ : Machine ω} {u v : Unit}
    (hput : (putStack stack).run s m = (.ok u, m₁))
    (hchange : (changeTree f).run s m₁ = (.ok v, m₂))
    (hwell : ∀ {catalog : Catalog}, Catalog.WellFormed catalog →
      Family.catalog.Shows (Overlay.mk s.store m.context.updates) catalog → stack.WellFormed)
    (hindex : ∀ {catalog : Catalog} {t t' : VersionTree}, Catalog.WellFormed catalog →
      Family.catalog.Shows (Overlay.mk s.store m.context.updates) catalog →
      t.Indexes catalog ∨ t.Indexes (catalog.insert stack.name stack) →
      f t = .ok t' → t'.Indexes (catalog.insert stack.name stack)) : Mirrors s m m₂ := by
  obtain ⟨hfits, rfl⟩ := put_eq_ok.1 hput
  obtain ⟨loaded, t, t', hloads, ht, hf, hcontext⟩ := changeTree_eq_ok hchange
  have hupdates : m₂.context.updates =
      m.context.updates.insert (Entry.stack stack.name).key (Stored.encode stack) := by
    rw [hcontext]
  constructor
  · intro hstore hstocking
    obtain ⟨catalog, hshows, hwf⟩ := (hstocking s.store hstore).exists_catalog
    rw [hupdates]
    exact hstocking.putStack hfits (hwell hwf hshows)
  · refine ⟨loaded, t, t', by rw [hupdates]; exact hloads, ht, by rw [hcontext], ?_⟩
    intro hstocked hrebuild
    obtain ⟨catalog, hshows, hwf⟩ := hstocked.exists_catalog
    have hshows' : Family.catalog.Shows (Overlay.mk s.store m₂.context.updates)
        (catalog.insert stack.name stack) := by
      rw [hupdates]
      exact hshows.put hfits
    have hwf' : Catalog.WellFormed (catalog.insert stack.name stack) :=
      hwf.insert (hwell hwf hshows)
    rw [VersionTree.rebuild_eq_ok_iff hshows hwf,
      VersionTree.rebuild_eq_ok_iff hshows' hwf'] at hrebuild
    rw [VersionTree.rebuild_eq_ok_iff hshows' hwf']
    exact hindex hwf hshows hrebuild hf

/-- Events do not matter. -/
theorem Mirrors.of_emits {m₂ : Machine ω} (h : Mirrors s m m₂)
    (hupdates : m'.context.updates = m₂.context.updates)
    (htree : m'.context.tree = m₂.context.tree) :
    Mirrors s m m' := by
  constructor
  · rw [hupdates]
    exact h.stocking
  · rw [hupdates, htree]
    exact h.tree

/-! ### Failures -/

/-- A failure leaves the tree as it is or loaded, or it counts a change. -/
def Execution.FailsVisibly {α : Type} (x : Execution ω α) : Prop :=
  ∀ s m failure m', x.run s m = (.error failure, m') →
    StagedTree.LoadsTo s.cache (Overlay.mk s.store m.context.updates) m.context.tree
        m'.context.tree ∨
      m.context.tree.changes < m'.context.tree.changes

namespace Execution.FailsVisibly

variable {α β : Type}

theorem of_quiet {x : Execution ω α} (h : Keeps Frame.quiet x) : x.FailsVisibly :=
  fun _ _ _ _ hrun => .inl (h.rel hrun).2

/-- What is done before anything is written does not matter. -/
theorem still_bind {x : Execution ω α} {f : α → Execution ω β} (hx : Keeps Frame.still x)
    (hf : ∀ a, (f a).FailsVisibly) : (x >>= f).FailsVisibly := by
  intro s m failure m' hrun
  rcases bind_eq_error.1 hrun with hrun | ⟨a, m₁, hrun, hrest⟩
  · obtain rfl : m' = m := hx.rel hrun
    exact .inl (.inl rfl)
  · obtain rfl : m₁ = m := hx.rel hrun
    exact hf a _ _ _ _ hrest

theorem guarded {c : Prop} [Decidable c] {failure : Failure} {f : α → Execution ω β}
    {x : Execution ω β} (hx : x.FailsVisibly) :
    (if c then fail failure >>= f else x).FailsVisibly := by
  split
  · exact of_quiet (Keeps.fail _)
  · exact hx

/-- A stack is written, the tree is changed along with it, and what follows does not fail. -/
theorem mirror {stack : Stack} {f : VersionTree → Except VersionError VersionTree}
    {x : Execution ω α} (hx : ∀ {s m failure m'}, x.run s m ≠ (.error failure, m')) :
    (do putStack stack; changeTree f; x).FailsVisibly := by
  intro s m failure m' hrun
  rcases bind_eq_error.1 hrun with hrun | ⟨_, m₁, hput, hrun⟩
  · rw [putStack, put] at hrun
    split at hrun
    · cases hrun
    · cases hrun
      exact .inl (.inl rfl)
  · obtain ⟨-, rfl⟩ := put_eq_ok.1 hput
    rcases bind_eq_error.1 hrun with hrun | ⟨_, m₂, -, hrun⟩
    · rcases changeTree_cases f s _ with
        ⟨failure', heq⟩ | ⟨loaded, t, log, hloads, -, ⟨t', -, heq⟩ | ⟨cause, -, heq⟩⟩
      · rw [heq] at hrun
        cases hrun
        exact .inl (.inl rfl)
      · rw [heq] at hrun
        cases hrun
      · rw [heq] at hrun
        cases hrun
        right
        have hchanges := hloads.changes_eq
        change _ < loaded.changes + 1
        rw [hchanges]
        exact Nat.lt_succ_self _
    · exact absurd hrun hx

end Execution.FailsVisibly

/-! ### The operations on stacks -/

namespace Operation

/-- A lookup of a stack is a lookup in the catalog. -/
theorem stack?_of_shows {catalog : Catalog} {name : String} {stack? : Option Stack}
    (hshows : Family.catalog.Shows (Overlay.mk s.store m.context.updates) catalog)
    (h : (Execution.stack? name).run s m = (.ok stack?, m')) :
    m' = m ∧ stack? = catalog.get? name := by
  have hread := hshows.read? name
  change (Except.mapError Failure.storage (Readable.stack? (Overlay.mk s.store m.context.updates)
    name), m) = _ at h
  change Readable.stack? _ name = _ at hread
  rw [hread] at h
  cases h
  exact ⟨rfl, rfl⟩

theorem stack_of_shows {catalog : Catalog} {name : String} {stack : Stack}
    (hshows : Family.catalog.Shows (Overlay.mk s.store m.context.updates) catalog)
    (h : (Execution.stack name).run s m = (.ok stack, m')) :
    m' = m ∧ catalog.get? name = some stack := by
  obtain ⟨stack?, m₁, hread, h⟩ := bind_eq_ok.1 h
  obtain ⟨rfl, rfl⟩ := stack?_of_shows hshows hread
  cases hget : catalog.get? name with
  | none => rw [hget] at h; cases h
  | some stack' => rw [hget] at h; cases h; exact ⟨rfl, rfl⟩

/-- A stack that was looked up is well-formed, and is filed under the name that it has. -/
theorem held_of_shows {catalog : Catalog} {name : String} {stack : Stack}
    (hwf : Catalog.WellFormed catalog)
    (hshows : Family.catalog.Shows (Overlay.mk s.store m.context.updates) catalog)
    (h : (Execution.stack name).run s m = (.ok stack, m')) :
    catalog.get? stack.name = some stack ∧ stack.WellFormed := by
  obtain ⟨-, hget⟩ := stack_of_shows hshows h
  obtain ⟨rfl, hwell⟩ := hwf hget
  exact ⟨hget, hwell⟩

/-- A stack with a single version. -/
theorem wellFormed_of_single {stack : Stack} {v : StackVersion} (h : stack.versions = [v])
    {p : Version} (hp : Version.parse v.version = .ok p) : stack.WellFormed where
  parses {w} hw := by
    rw [h, List.mem_singleton] at hw
    exact ⟨p, hw ▸ hp⟩
  apart := h ▸ List.pairwise_singleton _ v

theorem createStack_mirrors {msg : CreateStack} {u : Unit}
    (h : (createStack msg).run s m = (.ok u, m')) : Mirrors s m m' := by
  obtain ⟨_, m₁, hmanager, h⟩ := bind_eq_ok.1 h
  obtain rfl : m = m₁ := ((still_requireStackManager _).rel hmanager).symm
  obtain ⟨stack?, m₁, hread, h⟩ := bind_eq_ok.1 h
  obtain rfl : m = m₁ := ((still_stack? _).rel hread).symm
  obtain ⟨hfree, h⟩ := guarded_eq_ok.1 h
  obtain ⟨_, m₁, hversion, h⟩ := bind_eq_ok.1 h
  obtain ⟨p, hp⟩ := requireVersion_ok (Prod.mk.inj hversion).1
  obtain rfl : m = m₁ := (Prod.mk.inj hversion).2
  obtain ⟨_, m₁, hput, h⟩ := bind_eq_ok.1 h
  obtain ⟨_, m₂, hchange, h⟩ := bind_eq_ok.1 h
  refine (mirrors_of_putStack hput hchange (fun _ _ => wellFormed_of_single rfl hp)
    fun {catalog t t'} hwf hshows hindex hadd => ?_).of_emits ?_ ?_
  · obtain ⟨-, hstack?⟩ := stack?_of_shows hshows hread
    have hnone : catalog.get? msg.name = none := by
      rw [← hstack?]
      simpa using hfree
    obtain ⟨t'', hadd', hindex'⟩ := VersionTree.Indexes.add hindex hp fun r => by
      have hoffers : ¬ Catalog.Offers catalog msg.name r := by
        rintro ⟨stack, hget, -⟩
        rw [hnone] at hget
        cases hget
      simp [Stack.Offers, hoffers]
    rw [hadd] at hadd'
    cases hadd'
    exact hindex'
  · cases h
    rfl
  · cases h
    rfl

theorem addVersion_mirrors {msg : AddVersion} {u : Unit}
    (h : (addVersion msg).run s m = (.ok u, m')) : Mirrors s m m' := by
  obtain ⟨_, m₁, hmanager, h⟩ := bind_eq_ok.1 h
  obtain rfl : m = m₁ := ((still_requireStackManager _).rel hmanager).symm
  obtain ⟨stack, m₁, hread, h⟩ := bind_eq_ok.1 h
  obtain rfl : m = m₁ := ((still_stack _).rel hread).symm
  obtain ⟨_, m₁, hversion, h⟩ := bind_eq_ok.1 h
  obtain ⟨p, hp⟩ := requireVersion_ok (Prod.mk.inj hversion).1
  obtain rfl : m = m₁ := (Prod.mk.inj hversion).2
  dsimp only at h
  split at h
  next => cases h
  next hfree =>
    obtain ⟨_, m₁, hput, h⟩ := bind_eq_ok.1 h
    obtain ⟨_, m₂, hchange, h⟩ := bind_eq_ok.1 h
    refine (mirrors_of_putStack hput hchange (fun hwf hshows => ?_)
      fun {catalog t t'} hwf hshows hindex hadd => ?_).of_emits ?_ ?_
    · refine (held_of_shows hwf hshows hread).2.addVersion ⟨p, hp⟩ fun w hw hcollide => ?_
      rw [Stack.colliding?, List.find?_eq_none] at hfree
      exact hfree w hw (decide_eq_true hcollide)
    · obtain ⟨hget, -⟩ := held_of_shows hwf hshows hread
      obtain ⟨t'', hadd', hindex'⟩ := VersionTree.Indexes.add hindex hp fun r => by
        rw [Stack.offers_addVersion]
        simp [Catalog.Offers, Stack.addVersion, hget]
      have heq : t' = t'' := Except.ok.inj (hadd.symm.trans hadd')
      exact heq ▸ hindex'
    · cases h
      rfl
    · cases h
      rfl

/-- A version is disabled along with the tree, or it is disabled already and nothing happens. -/
theorem disableVersion_cases {msg : DisableVersion} {u : Unit} {p : Version}
    (hp : Version.parse msg.version = .ok p)
    (h : (disableVersion msg).run s m = (.ok u, m')) : Mirrors s m m' ∨ m' = m := by
  obtain ⟨_, m₁, hmanager, h⟩ := bind_eq_ok.1 h
  obtain rfl : m = m₁ := ((still_requireStackManager _).rel hmanager).symm
  obtain ⟨stack, m₁, hread, h⟩ := bind_eq_ok.1 h
  obtain rfl : m = m₁ := ((still_stack _).rel hread).symm
  split at h
  next => cases h
  next v hv =>
    split at h
    next henabled =>
      obtain ⟨_, m₁, hput, h⟩ := bind_eq_ok.1 h
      obtain ⟨_, m₂, hchange, h⟩ := bind_eq_ok.1 h
      refine .inl <| (mirrors_of_putStack hput hchange
        (fun hwf hshows => (held_of_shows hwf hshows hread).2.disable _)
        fun {catalog t t'} hwf hshows hindex hremove => ?_).of_emits ?_ ?_
      · obtain ⟨hget, hwell⟩ := held_of_shows hwf hshows hread
        obtain ⟨t'', hremove', hindex'⟩ := VersionTree.Indexes.remove hindex hp fun r => by
          rw [Stack.offers_disable hwell]
          simp [Catalog.Offers, Stack.disable, hget]
        have heq : t' = t'' := Except.ok.inj (hremove.symm.trans hremove')
        exact heq ▸ hindex'
      · cases h
        rfl
      · cases h
        rfl
    next =>
      cases h
      exact .inr rfl

/-! How the operations on stacks fail. -/

theorem createStack_failsVisibly (msg : CreateStack) :
    (createStack msg : Execution ω Unit).FailsVisibly := by
  refine .still_bind (still_requireStackManager _) fun _ => ?_
  refine .still_bind (still_stack? _) fun stack? => .guarded ?_
  refine .still_bind (still_liftFailure _) fun _ => ?_
  exact .mirror fun hrun => by cases hrun

theorem addVersion_failsVisibly (msg : AddVersion) :
    (addVersion msg : Execution ω Unit).FailsVisibly := by
  refine .still_bind (still_requireStackManager _) fun _ => ?_
  refine .still_bind (still_stack _) fun stack => ?_
  refine .still_bind (still_liftFailure _) fun _ => ?_
  dsimp only
  split
  · exact .of_quiet (Keeps.fail _)
  · exact .mirror fun hrun => by cases hrun

theorem disableVersion_failsVisibly (msg : DisableVersion) :
    (disableVersion msg : Execution ω Unit).FailsVisibly := by
  refine .still_bind (still_requireStackManager _) fun _ => ?_
  refine .still_bind (still_stack _) fun stack => ?_
  split
  · exact .of_quiet (Keeps.fail _)
  · split
    · exact .mirror fun hrun => by cases hrun
    · exact .of_quiet (Keeps.pure _)

end Operation

/-! ### The import of a genesis state -/

/-- The version tree is left alone. -/
def Frame.treeAlone : Frame ω :=
  ⟨fun _ m m' => m'.context.tree = m.context.tree, fun _ _ => rfl, fun h h' => h'.trans h⟩

/-- Stores stay stocked. -/
def Frame.stocking : Frame ω :=
  ⟨fun _ m m' => m.context.updates.Stocking → m'.context.updates.Stocking, fun _ _ => id,
    fun h h' => h' ∘ h⟩

namespace Execution

variable {α : Type}

theorem treeAlone_put [Stored.Format α] (entry : Entry) (a : α) :
    Keeps Frame.treeAlone (put entry a : Execution ω Unit) := by
  rw [put]
  split
  · exact fun _ _ => rfl
  · exact Keeps.fail _

theorem stocking_of_quiet {x : Execution ω α} (h : Keeps Frame.quiet x) : Keeps Frame.stocking x :=
  h.mono fun hrel => hrel.1.stocking

theorem stocking_putStack {stack : Stack} (h : stack.WellFormed) :
    Keeps Frame.stocking (putStack stack : Execution ω Unit) := by
  rw [putStack, put]
  split
  next hfits => exact fun _ _ hstocking => hstocking.putStack hfits h
  next => exact Keeps.fail _

end Execution

namespace Operation

/-- Once a genesis state is written the tree is dropped, and stores stay stocked. -/
theorem importGenesis_ok {genesis : Genesis} {u : Unit}
    (h : (importGenesis genesis).run s m = (.ok u, m')) :
    (m.context.updates.Stocking → m'.context.updates.Stocking) ∧
      m'.context.tree = m.context.tree.discard := by
  obtain ⟨_, m₁, hcheck, h⟩ := bind_eq_ok.1 h
  have hchecked : genesis.Checked := Genesis.check_ok (Prod.mk.inj hcheck).1
  obtain rfl : m = m₁ := (Prod.mk.inj hcheck).2
  obtain ⟨_, m₁, hparams, h⟩ := bind_eq_ok.1 h
  obtain ⟨_, m₂, hstacks, h⟩ := bind_eq_ok.1 h
  obtain ⟨_, m₃, hchainlets, h⟩ := bind_eq_ok.1 h
  obtain ⟨_, m₄, hcount, h⟩ := bind_eq_ok.1 h
  cases h
  constructor
  · intro hstocking
    have h₁ := (stocking_of_quiet (quiet_putParams _)).rel hparams hstocking
    have h₂ := (Keeps.forM fun stack hstack =>
      stocking_putStack (hchecked.catalog stack hstack)).rel hstacks h₁
    have h₃ := (Keeps.forM fun chainlet _ =>
      stocking_of_quiet (quiet_putChainlet chainlet)).rel hchainlets h₂
    have h₄ := (stocking_of_quiet (quiet_putChainletCount _)).rel hcount h₃
    exact h₄
  · have h₁ := (treeAlone_put _ _).rel hparams
    have h₂ := (Keeps.forM fun _ _ => treeAlone_put _ _).rel hstacks
    have h₃ := (Keeps.forM fun _ _ => treeAlone_put _ _).rel hchainlets
    have h₄ := (treeAlone_put _ _).rel hcount
    have htree := Frame.treeAlone.trans h₁ (Frame.treeAlone.trans h₂ (Frame.treeAlone.trans h₃ h₄))
    exact congrArg StagedTree.discard htree

theorem importGenesis_failsVisibly (genesis : Genesis) :
    (importGenesis genesis : Execution ω Unit).FailsVisibly := by
  intro s m failure m' h
  left
  left
  -- The tree is dropped in the very last steps, which do not fail.
  let writes : Execution ω Unit := do
    genesis.check
    putParams genesis.params
    genesis.catalog.forM putStack
    genesis.chainlets.forM putChainlet
    putChainletCount (.ofNat genesis.chainlets.length)
  have hwrites : Keeps Frame.treeAlone writes := by
    refine (still_liftFailure _).of_still.bind fun _ => ?_
    refine (treeAlone_put _ _).bind fun _ => ?_
    refine (Keeps.forM fun _ _ => treeAlone_put _ _).bind fun _ => ?_
    exact (Keeps.forM fun _ _ => treeAlone_put _ _).bind fun _ => treeAlone_put _ _
  have hsplit : importGenesis genesis = writes >>= fun _ => discardTree >>= fun _ =>
      log (.genesisWritten genesis.catalog.length genesis.chainlets.length) := by
    simp only [importGenesis, writes, bind_assoc]
  rw [hsplit] at h
  rcases bind_eq_error.1 h with h | ⟨_, m₁, -, h⟩
  · exact hwrites.rel h
  · cases h

end Operation

end Chainlets
