import Chainlets.Proofs.Genesis.Export
import Chainlets.Proofs.Node.Lending

/-!
# Restarting from an export

A node is established when it imports a genesis state in its first context and commits it. Its store
then shows the registry of the genesis state, unless something in it is too long to be stored. What
is exported of that store is the genesis state again, sorted.

From a well-formed genesis state on, every registry is well-formed, so what is exported at any time
after the genesis state has been committed passes the check of a genesis state, and it can be stored
since it was. A node that is established with it reads the same, except that nobody waits for first
validators. Before that there is nothing to export.

Those who waited are consumers all the same, and a consumer is not registered a second time. So they
do not come to wait again: on the new node the parent chain is never told to send them their first
validators early. What is told of them as consumers ends with the export.

## Main definitions

* `Node.Occasion`, `Node.establish` — a genesis state is imported and committed.
* `Readings.unawaited` — what is read of a state when nobody waits.
* `Node.Restores` — two stores read the same, but for who waits.
* `Node.Forgets` — what becomes of those who wait.

## Main results

* `Controller.perform_import_of_storable` — an import that succeeds.
* `Node.exists_traced_run_establish` — a node that is established goes on from its genesis state by
  acts.
* `Node.import_and_export_invert` — **import and export are inverse.**
* `Node.not_always_inverted` — not of what cannot be stored, and not before it has been committed.
* `Node.forgets_run` — **who waits is forgotten when a chain is restarted from an export.**
* `Node.not_always_restored_waiting` — a consumer that is never initialized for that reason.
-/

namespace Chainlets

open Execution

/-! ### Imports that succeed -/

namespace Controller

variable {ω : Type} {store : Store} {parent : Parent ω} {live : Live ω} {genesis : Genesis}

/-- An import of what passes the check and can be stored succeeds, and over an empty registry it
leaves that of the genesis state. -/
theorem perform_import_of_storable (hcheck : genesis.check = .ok ()) (hstorable : genesis.Storable)
    (hshows : Registry.empty.ShownBy (Overlay.mk store live.context.updates)) :
    let after := perform store parent (.importGenesis genesis) live
    after.1 = .ok .done ∧
      genesis.registry.ShownBy (Overlay.mk store after.2.context.updates) := by
  obtain ⟨_, m', hrun⟩ := (Operation.importGenesis_storesIf hcheck ⟨store, parent, live.cache⟩
    ⟨live.context, live.world, live.log⟩).1 hstorable
  obtain ⟨_, hshows', rfl⟩ := Operation.importGenesis_ensures genesis _ _ _ m' hshows hrun
  have hdone : (do
      Operation.importGenesis genesis
      return Response.done : Execution ω Response).run ⟨store, parent, live.cache⟩
        ⟨live.context, live.world, live.log⟩ = (.ok .done, m') := by
    rw [run_bind_of_ok hrun]
    rfl
  obtain ⟨hresult, hcontext⟩ := execute_of_ok hdone
  intro after
  rw [show after.2.context = m'.context from hcontext]
  exact ⟨hresult, hshows'⟩

/-- An import of what passes the check and cannot be stored fails for that reason, and does
nothing. -/
theorem perform_import_of_not_storable (hcheck : genesis.check = .ok ())
    (hstorable : ¬ genesis.Storable) :
    let after := perform store parent (.importGenesis genesis) live
    (∃ entry, after.1 = .error (.storage (.unencodable entry))) ∧
      after.2.context.updates = live.context.updates := by
  obtain ⟨entry, m', hrun⟩ := (Operation.importGenesis_storesIf hcheck ⟨store, parent, live.cache⟩
    ⟨live.context, live.world, live.log⟩).2 hstorable
  have hfails : (do
      Operation.importGenesis genesis
      return Response.done : Execution ω Response).run ⟨store, parent, live.cache⟩
        ⟨live.context, live.world, live.log⟩ = (.error (.storage (.unencodable entry)), m') :=
    run_bind_of_error hrun
  obtain ⟨hresult, hupdates, -⟩ := execute_of_error hfails
  exact ⟨⟨entry, hresult⟩, hupdates⟩

end Controller

/-! ### Nodes with a genesis state -/

/-- What is read of a state in which the same is stored but nobody waits. -/
def Readings.unawaited (R : Readings) : Readings :=
  { R with pendingInit? := fun _ => none, pendingInits := [] }

namespace Node

variable {ω : Type}

/-- The circumstances in which a node gets its genesis state. -/
structure Occasion (ω : Type) where
  /-- The height of the block. -/
  height : Height
  /-- The time of the block. -/
  time : Time
  /-- The parent chain. -/
  parent : Parent ω
  /-- The state that the parent chain is in. -/
  world : ω
  /-- Whether events are logged. -/
  logsEvents : Bool
  /-- Whether anyone listens to events. -/
  listener : Controller.Listener

/-- The actions by which a node gets its genesis state and commits it. -/
def establish (occasion : Occasion ω) (genesis : Genesis) : List (Action ω) :=
  begin genesis occasion.height occasion.time occasion.parent occasion.world ++
    [.commit occasion.logsEvents occasion.listener]

variable {genesis : Genesis} (occasion : Occasion ω)

/-- What is committed is what the import leaves. -/
theorem store_establish (genesis : Genesis) :
    (start.run (establish occasion genesis)).store = (∅ : Store).write
      (Controller.perform ∅ occasion.parent (.importGenesis genesis)
        ⟨.fresh occasion.height occasion.time, .unloaded, occasion.world, []⟩).2.context.updates :=
  rfl

/-- Nothing is committed if the genesis state cannot be stored. -/
theorem store_establish_of_not_storable (hcheck : genesis.check = .ok ())
    (hstorable : ¬ genesis.Storable) : (start.run (establish occasion genesis)).store = ∅ := by
  rw [store_establish, (Controller.perform_import_of_not_storable hcheck hstorable).2]
  rfl

/-- The store of a node that is established shows the registry of the genesis state. -/
theorem shows_establish (hcheck : genesis.check = .ok ()) (hstorable : genesis.Storable) :
    genesis.registry.ShownBy (start.run (establish occasion genesis)).store := by
  rw [store_establish]
  exact (Controller.perform_import_of_storable hcheck hstorable
    Registry.ShownBy.empty.opened).2.write

/-- A node that is established is traced from its genesis state on. -/
theorem exists_traced_establish (hcheck : genesis.check = .ok ()) (hstorable : genesis.Storable) :
    ∃ journal, Traced (some genesis) journal (start.run (establish occasion genesis))
      genesis.registry := by
  obtain ⟨reg, htraced⟩ := @exists_traced_run ω (establish occasion genesis) (Nat.le_refl 1)
  obtain rfl := htraced.committed.unique (shows_establish occasion hcheck hstorable)
  exact ⟨_, htraced⟩

/-- **A node that is established goes on from its genesis state by acts**, which its journal
tells. -/
theorem exists_traced_run_establish (hcheck : genesis.check = .ok ()) (hstorable : genesis.Storable)
    {actions : List (Action ω)} (himport : ∀ action ∈ actions, action.genesis? = none) :
    let n := start.run (establish occasion genesis)
    ∃ journal reg, Traced (some genesis) journal (n.run actions) reg ∧
      genesis.registry.Acts (n.journal actions) reg := by
  obtain ⟨journal, htraced⟩ := exists_traced_establish occasion hcheck hstorable
  obtain ⟨reg, htraced', hacts⟩ := htraced.run_of_given rfl himport
  exact ⟨_, reg, htraced', hacts⟩

/-! ### Import and export -/

/-- Two stores read the same and without a fault, except that nobody waits in the second one; and
the version tree that is rebuilt is the same. -/
structure Restores (s s' : Store) : Prop where
  readings : ∃ R : Readings, R.params?.isSome = true ∧ R.ReadFrom s ∧ R.unawaited.ReadFrom s'
  tree : ∃ t, VersionTree.rebuild s = .ok t ∧ VersionTree.rebuild s' = .ok t

theorem restores_of_shows {reg : Registry} {s s' : Store} (hreg : reg.Filed)
    (hgiven : reg.params?.isSome = true) (h : reg.ShownBy s)
    (h' : ({ reg with waiting := ∅ } : Registry).ShownBy s') : Restores s s' where
  readings := ⟨.ofRegistry reg, hgiven, Readings.readFrom_ofRegistry h,
    Readings.readFrom_ofRegistry h'⟩
  tree := by
    obtain ⟨t, ht, hindexes⟩ := VersionTree.rebuild_ok h.catalog hreg.catalog
    exact ⟨t, ht, (VersionTree.rebuild_eq_ok_iff h'.catalog hreg.catalog).2 hindexes⟩

/-- A node that is established with what is exported of a well-formed store restores the store. -/
theorem restores_of_wellFormed {reg : Registry} {params : Params} {s : Store}
    (hreg : reg.WellFormed) (hparams : reg.params? = some params) (hshows : reg.ShownBy s) :
    Restores s (start.run (establish occasion (reg.genesis params))).store := by
  have hcheck := hreg.check_genesis hparams
  have hshows' := shows_establish occasion hcheck (hshows.storable params)
  rw [hreg.registry_genesis hparams] at hshows'
  exact restores_of_shows hreg.filed (by rw [hparams]; rfl) hshows hshows'

omit occasion in
/-- Nothing is exported before a genesis state has been committed: the parameters are missing. -/
theorem Traced.ofState_of_not_founded {imported? : Option Genesis} {journal : List Event} {n : Node}
    {reg : Registry} (h : Traced imported? journal n reg) (hfounded : ¬ n.Founded) :
    Genesis.ofState n.store = .error (.missing .params) := by
  have hread := h.committed.params
  cases hgiven : reg.params? with
  | none =>
    rw [Genesis.ofState, Readable.params, hread, hgiven]
    rfl
  | some params =>
    refine absurd ⟨params, ?_⟩ hfounded
    rw [Readable.params, hread, hgiven]
    rfl

omit occasion in
/-- **Import and export are inverse.** A genesis state that passes the check and has been imported
and committed is exported as it was, sorted, and its chainlets are counted; one that cannot be
stored leaves the store empty. And at any time of a run that imports one genesis state, a
well-formed one, if that has been committed: what is exported passes the check, and a node that
imports it and commits it reads the same, except for who waits, and rebuilds the same version tree.
As long as it has not been committed the parameters are missing. -/
theorem import_and_export_invert :
    (∀ (occasion : Occasion ω) (genesis : Genesis), genesis.check = .ok () →
      let store := (start.run (establish occasion genesis)).store
      (genesis.Storable →
        ∃ exported count, Genesis.ofState store = .ok exported ∧ exported.Sorts genesis ∧
          Readable.chainletCount store = .ok count ∧
            count.toNat = genesis.chainlets.length) ∧
      (¬ genesis.Storable → store = ∅)) ∧
    ∀ (genesis : Genesis) (actions : List (Action ω)), genesis.WellFormed →
      actions.filterMap Action.genesis? = [genesis] →
      let store := (start.run actions).store
      ((start.run actions).Founded →
        ∃ exported, Genesis.ofState store = .ok exported ∧ exported.check = .ok () ∧
          ∀ occasion : Occasion ω,
            Restores store (start.run (establish occasion exported)).store) ∧
      (¬ (start.run actions).Founded → Genesis.ofState store = .error (.missing .params)) := by
  refine ⟨fun occasion genesis hcheck => ⟨fun hstorable => ?_, fun hstorable => ?_⟩,
    fun genesis actions hgenesis honce => ⟨fun hfounded => ?_, fun hfounded => ?_⟩⟩
  · have hshows := shows_establish occasion hcheck hstorable
    have hchecked := Genesis.check_ok hcheck
    exact ⟨_, _, hshows.ofState_eq_ok_iff.2 ⟨_, rfl, rfl⟩, hchecked.sorts, hshows.count,
      hchecked.count_eq⟩
  · exact store_establish_of_not_storable occasion hcheck hstorable
  · obtain ⟨reg, htraced, -, hacts⟩ := exists_traced_run_of_founded honce hfounded
    have hreg : reg.WellFormed := hacts.wellFormed hgenesis.registry
    have hparams : reg.params? = some genesis.params := hacts.params?_eq
    refine ⟨_, htraced.committed.ofState_eq_ok_iff.2 ⟨_, hparams, rfl⟩,
      hreg.check_genesis hparams, fun occasion => ?_⟩
    exact restores_of_wellFormed occasion hreg hparams htraced.committed
  · obtain ⟨reg, htraced⟩ := @exists_traced_run _ actions (by simp [honce])
    exact htraced.ofState_of_not_founded hfounded

/-- The first block. -/
def firstBlock : Occasion Host.World :=
  ⟨⟨1⟩, ⟨0⟩, Host.World.parent true, .initial, true, .listening⟩

theorem storable_upgrading : upgrading.Storable where
  catalog stack hstack := by
    rw [List.mem_singleton.1 hstack]
    rfl
  chainlets c hc := by
    rw [List.mem_singleton.1 hc]
    rfl

/-- The genesis state is imported, and a stack is created in the same context, before the genesis
state is committed with it. More is done and committed afterwards. -/
def continued : List (Action Host.World) :=
  begin upgrading ⟨1⟩ ⟨0⟩ (Host.World.parent true) .initial ++
    .perform (Host.World.parent true) .initial (.handle (.createStack
      ⟨"manager", "gamma", "", "c", "1.0.0", "c", [⟨"psaga", default, default⟩], false⟩)) ::
    afterwards

/-- Two stacks have been created by then, one of them together with the import, and the upgrade of
the chainlet is still pending. -/
theorem import_and_export_invert_upgrading :
    upgrading.check = .ok () ∧ upgrading.Storable ∧ upgrading.WellFormed ∧
      continued.filterMap Action.genesis? = [upgrading] ∧ (start.run continued).Founded ∧
      (∃ exported count, Genesis.ofState (start.run (establish firstBlock upgrading)).store =
          .ok exported ∧ exported.Sorts upgrading ∧
        Readable.chainletCount (start.run (establish firstBlock upgrading)).store = .ok count ∧
          count.toNat = 1) ∧
      let store := (start.run continued).store
      (∃ exported, Genesis.ofState store = .ok exported ∧ exported.check = .ok () ∧
        Restores store (start.run (establish firstBlock exported)).store) ∧
      (Genesis.ofState store).toOption.map (fun exported =>
        (exported.catalog.map (·.name), exported.chainlets.map (·.upgrade?))) =
          some (["alpha", "beta", "gamma"], [some ⟨"2.0.0", ⟨10⟩, "channel-0"⟩]) := by
  have honce : continued.filterMap Action.genesis? = [upgrading] := rfl
  have hfounded : (start.run continued).Founded := ⟨upgrading.params, by decide +kernel⟩
  obtain ⟨hexports, hrestores⟩ := @import_and_export_invert Host.World
  refine ⟨rfl, storable_upgrading, wellFormed_upgrading, honce, hfounded, ?_, ?_, ?_⟩
  · exact (hexports firstBlock upgrading rfl).1 storable_upgrading
  · obtain ⟨exported, hexport, hcheck, hrestored⟩ :=
      (hrestores upgrading continued wellFormed_upgrading honce).1 hfounded
    exact ⟨exported, hexport, hcheck, hrestored firstBlock⟩
  · decide +kernel

/-- The genesis state with another description of its stack, one letter a number of times. -/
def describedBy (n : Nat) : Genesis :=
  { upgrading with catalog := upgrading.catalog.map fun stack =>
      { stack with description := String.ofList (List.replicate n 'a') } }

/-- The check does not look at descriptions. -/
theorem check_describedBy (n : Nat) : (describedBy n).check = .ok () := rfl

/-- A description that is longer than what four bytes can count is not stored. -/
theorem not_storable_describedBy {n : Nat} (h : Stored.maxCount < n) :
    ¬ (describedBy n).Storable := by
  intro hstorable
  have hfits := hstorable.catalog _ (List.mem_singleton_self _)
  obtain ⟨⟨⟨-, hdescription⟩, -⟩, -⟩ : ((_ ∧ _) ∧ _) ∧ _ := by
    simpa only [Stored.fits, Bool.and_eq_true] using hfits
  have hfour := Stored.fits_text_iff.1 hdescription
  have hbytes := (Utf8.length_encode_bounds (String.ofList (List.replicate n 'a'))).1
  rw [String.length_ofList, List.length_replicate] at hbytes
  omega

/-- A genesis state that passes the check is not exported if it cannot be stored, and a well-formed
one is not exported as long as its import has not been committed. -/
theorem not_always_inverted :
    (¬ ∀ (occasion : Occasion Host.World) (genesis : Genesis), genesis.check = .ok () →
      ∃ exported, Genesis.ofState (start.run (establish occasion genesis)).store =
        .ok exported) ∧
    ¬ ∀ (genesis : Genesis) (actions : List (Action Host.World)), genesis.WellFormed →
      actions.filterMap Action.genesis? = [genesis] →
      ∃ exported, Genesis.ofState (start.run actions).store = .ok exported := by
  constructor
  · intro hall
    obtain ⟨exported, hexport⟩ := hall firstBlock (describedBy (Stored.maxCount + 1))
      (check_describedBy _)
    rw [store_establish_of_not_storable firstBlock (check_describedBy _)
      (not_storable_describedBy (Nat.lt_succ_self _))] at hexport
    cases hexport
  · intro hall
    obtain ⟨exported, hexport⟩ := hall upgrading
      (begin upgrading ⟨1⟩ ⟨0⟩ (Host.World.parent true) .initial) wellFormed_upgrading rfl
    cases hexport

/-! ### Who waits -/

omit occasion in
theorem run_append (n : Node) (actions more : List (Action ω)) :
    n.run (actions ++ more) = (n.run actions).run more := List.foldl_append

omit occasion in
theorem journal_append (n : Node) (actions more : List (Action ω)) :
    n.journal (actions ++ more) = n.journal actions ++ (n.run actions).journal more := by
  induction actions generalizing n with
  | nil => rfl
  | cons action actions ih =>
    rw [List.cons_append, journal, journal, ih, List.append_assoc]
    rfl

/-- What is committed on a node that imports a genesis state first and none later. The genesis state
may be refused, and then there is nothing. -/
theorem establish_cases (hstorable : genesis.Storable) {actions : List (Action ω)}
    (himport : ∀ action ∈ actions, action.genesis? = none) :
    let n := start.run (establish occasion genesis)
    (genesis.check = .ok () ∧ genesis.registry.ShownBy n.store ∧
      ∃ reg, genesis.registry.Acts (n.journal actions) reg ∧ reg.ShownBy (n.run actions).store) ∨
    genesis.check ≠ .ok () ∧ n.journal actions = [] ∧
      Registry.empty.ShownBy (n.run actions).store := by
  intro n
  by_cases hcheck : genesis.check = .ok ()
  · obtain ⟨_, reg, htraced, hacts⟩ :=
      exists_traced_run_establish occasion hcheck hstorable himport
    exact .inl ⟨hcheck, shows_establish occasion hcheck hstorable, reg, hacts, htraced.committed⟩
  · have himports : (establish occasion genesis ++ actions).filterMap Action.genesis? =
        [genesis] := by
      rw [List.filterMap_append, List.filterMap_eq_nil_iff.2 himport]
      rfl
    obtain ⟨reg, htraced⟩ := @exists_traced_run ω (establish occasion genesis ++ actions)
      (by rw [himports]; exact Nat.le_refl 1)
    rw [himports, journal_append, run_append] at htraced
    rcases htraced.follows.eq_or_given with ⟨hnone, rfl⟩ | ⟨⟨_, ⟨⟩, haccepted, -⟩, -⟩
    · exact .inr ⟨hcheck, (List.append_eq_nil_iff.1 hnone).2, htraced.committed⟩
    · exact absurd haccepted hcheck

/-- What becomes of those who wait in a store when a node is established with what is exported of
it. -/
structure Forgets (ω : Type) (s : Store) (exported : Genesis) (n : Node) : Prop where
  /-- Nobody waits. -/
  idle : Readable.pendingInits n.store = .ok []
  /-- The chainlets are the same, consumers among them, unless the import is refused. -/
  chainlets : exported.check = .ok () →
    Readable.allChainlets n.store = Readable.allChainlets s ∧
      ∀ chainId, Readable.chainlet? n.store chainId = Readable.chainlet? s chainId
  /-- Whoever waited is never told to wait, nor initialized, whatever happens from then on short of
  another import. -/
  never : ∀ chainId consumer, Readable.pendingInit? s chainId = .ok (some consumer) →
    ∀ actions : List (Action ω), (∀ action ∈ actions, action.genesis? = none) →
      (n.journal actions).filter (Event.isOfConsumer chainId) = [] ∧
        Readable.pendingInit? (n.run actions).store chainId = .ok none

variable {imported? : Option Genesis} {journal : List Event} {n : Node} {reg : Registry}

/-- Those who wait in a traced store are forgotten: they are consumers already in what is exported,
and none of them waits in its registry. -/
theorem Traced.forgets (h : Traced imported? journal n reg) (params : Params) :
    Forgets ω n.store (reg.genesis params)
      (Node.start.run (establish occasion (reg.genesis params))) := by
  have hcases {actions : List (Action ω)} :=
    @establish_cases ω (reg.genesis params) occasion (h.committed.storable params) actions
  rw [h.filed.registry_genesis params] at hcases
  refine ⟨?_, fun hcheck => ?_, fun chainId consumer hwaits actions himport => ?_⟩
  · rcases @hcases [] nofun with ⟨-, hshows, -⟩ | ⟨-, -, hshows⟩
    · exact hshows.waiting.readAll
    · exact hshows.waiting.readAll
  · rcases @hcases [] nofun with ⟨-, hshows, -⟩ | ⟨hrefused, -⟩
    · refine ⟨hshows.allChainlets.trans h.committed.allChainlets.symm, fun chainId => ?_⟩
      exact (hshows.chainlet?_eq chainId).trans (h.committed.chainlet?_eq chainId).symm
    · exact absurd hcheck hrefused
  · have hwaiting : reg.waiting.get? chainId = some consumer :=
      Except.ok.inj ((h.committed.waiting.read? chainId).symm.trans hwaits)
    have hlent := h.follows.lent chainId
    rw [Registry.Lent, hwaiting] at hlent
    obtain ⟨c, hheld, hjoined, hnamed⟩ := hlent.exists_of_waiting
    rcases hcases himport with ⟨-, -, reg', hacts, hshows⟩ | ⟨-, hnone, hshows⟩
    · obtain ⟨hidle, htold⟩ := hacts.unlent hheld hjoined hnamed rfl
      exact ⟨htold, by rw [← hidle]; exact hshows.waiting.read? chainId⟩
    · exact ⟨by rw [hnone]; rfl, hshows.waiting.read? chainId⟩

omit occasion in
/-- **Who waits is forgotten when a chain is restarted from an export.** At any time of a run
without a second import, a node that imports what is exported and commits it has the same chainlets,
but nobody waits on it; and whoever waited will never be initialized there, being a consumer
already. -/
theorem forgets_run {actions : List (Action ω)}
    (honce : (actions.filterMap Action.genesis?).length ≤ 1) {exported : Genesis}
    (hexport : Genesis.ofState (start.run actions).store = .ok exported) (occasion : Occasion ω) :
    Forgets ω (start.run actions).store exported (start.run (establish occasion exported)) := by
  obtain ⟨reg, htraced⟩ := exists_traced_run honce
  obtain ⟨params, -, rfl⟩ := htraced.committed.ofState_eq_ok_iff.1 hexport
  exact htraced.forgets occasion params

/-- The chainlet has joined and waits; this is committed. -/
def registered : List (Action Host.World) := joined.take 6

/-- A block in which the consumer is launched and has a channel. -/
def nextBlock : List (Action Host.World) :=
  [.openContext ⟨3⟩ ⟨0⟩, .perform (Host.World.parent true) launched .beginBlock,
    .commit true .listening]

/-- What is exported while the chainlet waits. -/
def registeredExport : Genesis :=
  { joining with chainlets := joining.chainlets.map fun c =>
      { c with version := "1.1.0", isConsumer := true, consumer? := some ⟨"0"⟩ } }

theorem ofState_registered :
    Genesis.ofState (start.run registered).store = .ok registeredExport := by
  have hexport : (Genesis.ofState (start.run registered).store).toOption =
      some registeredExport := by decide +kernel
  cases hresult : Genesis.ofState (start.run registered).store with
  | error fault => rw [hresult] at hexport; cases hexport
  | ok exported => rw [hresult] at hexport; rw [Option.some.inj hexport]

theorem forgets_registered :
    (registered.filterMap Action.genesis?).length ≤ 1 ∧
      Genesis.ofState (start.run registered).store = .ok registeredExport ∧
      registeredExport.check = .ok () ∧
      (Readable.pendingInits (start.run registered).store).toOption =
        some [("alpha_1-1", ⟨"0"⟩)] ∧
      Forgets Host.World (start.run registered).store registeredExport
        (start.run (establish firstBlock registeredExport)) := by
  have honce : (registered.filterMap Action.genesis?).length ≤ 1 := by decide
  exact ⟨honce, ofState_registered, rfl, by decide +kernel,
    forgets_run honce ofState_registered firstBlock⟩

/-- Who waits is not always restored, and not always initialized later where he would have been. -/
theorem not_always_restored_waiting :
    ¬ ∀ (actions : List (Action Host.World)) (exported : Genesis) (occasion : Occasion Host.World),
      (actions.filterMap Action.genesis?).length ≤ 1 →
      Genesis.ofState (start.run actions).store = .ok exported →
      let n := start.run actions
      let n' := start.run (establish occasion exported)
      Readable.pendingInits n'.store = Readable.pendingInits n.store ∧
        ∀ more : List (Action Host.World), (∀ action ∈ more, action.genesis? = none) →
          ∀ chainId consumer channel,
            Event.initConsumer chainId consumer channel ∈ n.journal more →
            Event.initConsumer chainId consumer channel ∈ n'.journal more := by
  intro hall
  obtain ⟨-, hlater⟩ := hall registered registeredExport firstBlock (by decide) ofState_registered
  have hkept : (start.run registered).journal nextBlock =
      [.initConsumer "alpha_1-1" ⟨"0"⟩ "channel-1"] := by decide +kernel
  have hlost : (start.run (establish firstBlock registeredExport)).journal nextBlock = [] := by
    decide +kernel
  have hmem := hlater nextBlock (by simp [nextBlock, Action.genesis?]) "alpha_1-1" ⟨"0"⟩ "channel-1"
    (by rw [hkept]; exact List.mem_singleton_self _)
  rw [hlost] at hmem
  cases hmem

end Node

end Chainlets
