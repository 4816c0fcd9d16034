import Chainlets.Host.World
import Chainlets.Proofs.Registry.BlockActivity
import Chainlets.Proofs.Registry.Fates
import Chainlets.Proofs.Registry.Genesis
import Chainlets.Proofs.Upgrade.Letters

/-!
# The scan, chainlet by chainlet

Each turn of the scan is a section of its own, so a registration that fails leaves nothing behind,
and the turns after it go on from what those before it left. The moves were planned on the records
that were there at first; no turn changes the record of another chainlet, so these are still the
stored ones.

A chainlet that was moved is not behind any more, since what the tree offers has nothing newer to
offer. So a scan after one in which every registration worked finds nothing to do.

## Main definitions

* `Operation.Leaves` — a machine after a part that has left events and shows another registry.
* `Operation.scanTurns`, `Operation.Scanned` — the turns of the scan, and what it leaves.

## Main results

* `Operation.run_moveTo`, `Operation.run_moveAll` — one turn, and all of them.
* `Operation.run_autoUpgrade` — **the scan succeeds, and does what the turns come to.**
-/

namespace Chainlets

open Execution

/-! ### Runs -/

namespace Operation

variable {ω : Type} {reg reg' : Registry} {s : Surroundings ω} {m m' : Machine ω} {t : VersionTree}
  {c : Chainlet} {target : String}

/-- A machine after a part that has left some events and shows another registry. Neither the time
nor the version tree has changed. -/
structure Leaves (s : Surroundings ω) (m m' : Machine ω) (told : List Event) (reg' : Registry) :
    Prop where
  time : m'.context.time = m.context.time
  tree : m'.context.tree = m.context.tree
  events : m'.context.events = m.context.events ++ told
  shows : reg'.ShownBy (Overlay.mk s.store m'.context.updates)

theorem Leaves.trans {m₁ : Machine ω} {reg₁ : Registry} {told more : List Event}
    (h : Leaves s m m₁ told reg₁) (h' : Leaves s m₁ m' more reg') :
    Leaves s m m' (told ++ more) reg' where
  time := h'.time.trans h.time
  tree := h'.tree.trans h.tree
  events := by rw [h'.events, h.events, List.append_assoc]
  shows := h'.shows

/-- What is planned for a chainlet is read off the tree, if it runs what is a version. -/
theorem run_autoTarget (hc : ∃ v, Version.parse c.version = .ok v) :
    (autoTarget t c : Execution ω _).run s m = (.ok (t.target? c), m) := by
  rw [autoTarget, VersionTree.target?]
  split
  next => rfl
  next =>
    obtain ⟨v, hv⟩ := hc
    obtain ⟨latest, hlatest⟩ := t.exists_latestCompatible c.stack hv
    rw [hlatest]
    change (Except.ok (if latest = c.version then none else some latest), m) = _
    by_cases hsame : latest = c.version
    · simp [Except.toOption, Option.filter, hsame]
    · simp [Except.toOption, Option.filter, hsame]

theorem run_autoTargets {chainlets : List Chainlet}
    (hparses : ∀ c ∈ chainlets, ∃ v, Version.parse c.version = .ok v) :
    (autoTargets t chainlets : Execution ω _).run s m = (.ok (t.plan chainlets), m) := by
  induction chainlets with
  | nil => rfl
  | cons c rest ih =>
    have hrest := ih fun d hd => hparses d (List.mem_cons_of_mem _ hd)
    rw [autoTargets, run_bind_of_ok (run_autoTarget (hparses c List.mem_cons_self)),
      run_bind_of_ok hrest]
    cases htarget : t.target? c with
    | none => simp [VersionTree.plan, htarget]
    | some target => simp [VersionTree.plan, htarget]

/-- The parameters are read if there are any. -/
theorem run_params_of_shows (hshows : reg.ShownBy (Overlay.mk s.store m.context.updates)) :
    (params : Execution ω Params).run s m =
      (reg.params?.elim (.error (.storage (.missing .params))) .ok, m) := by
  have hread : Readable.params (Overlay.mk s.store m.context.updates) =
      reg.params?.elim (.error (.missing .params)) .ok := by
    rw [Readable.params, hshows.params]
    cases reg.params? <;> rfl
  rw [run_params, hread]
  cases reg.params? <;> rfl

/-- The consumer of a chainlet is created, and its name can be stored. -/
theorem run_registerConsumer_of_ok {chainId : String} {time : Time} {unbonding : Duration}
    {consumer : ConsumerId} {world : ω}
    (h : s.parent.createConsumer chainId time unbonding m.world = (.ok consumer, world)) :
    (registerConsumer chainId time unbonding).run s m =
      (putPendingInit chainId consumer >>= fun _ => do
        emit (.registerConsumer chainId consumer)
        return consumer).run s { m with
          world := s.parent.advanceValidatorSetId
            (s.parent.queueChange consumer (.empty (s.parent.validatorSetId world)) world) } := by
  rw [registerConsumer.eq_def, call, bind_assoc, run_bind_of_ok (run_attempt ..), h]
  rfl

/-- The consumer of a chainlet is not created. -/
theorem run_registerConsumer_of_error {chainId : String} {time : Time} {unbonding : Duration}
    {reason : String} {world : ω}
    (h : s.parent.createConsumer chainId time unbonding m.world = (.error reason, world)) :
    (registerConsumer chainId time unbonding).run s m =
      (.error (.collaborator reason), { m with world }) := by
  rw [registerConsumer.eq_def, call, bind_assoc, run_bind_of_ok (run_attempt ..), h]
  rfl

/-- The registration of a chainlet that has to be registered, with the parameters at hand. -/
theorem run_registerForVersion_of_params {params : Params}
    (hparams : Readable.params (Overlay.mk s.store m.context.updates) = .ok params)
    {version : StackVersion} (hneeded : ¬ (c.isConsumer || !version.isConsumer) = true) :
    let enlisted := s.parent.enlist (some params) m.context.time c.chainId m.world
    (∃ consumer, enlisted.1 = some consumer ∧ Stored.fits consumer = true ∧
      (registerForVersion c version).run s m = (.ok (c.join consumer), { m with
        world := enlisted.2
        context := { m.context with
          updates := m.context.updates.insert (Entry.pendingInit c.chainId).key
            (Stored.encode consumer)
          events := m.context.events ++ [.registerConsumer c.chainId consumer] } })) ∨
    enlisted.1 = none ∧ ∃ failure, (registerForVersion c version).run s m =
      (.error failure, { m with world := enlisted.2 }) := by
  rw [registerForVersion, if_neg hneeded, Parent.enlist.eq_def,
    run_bind_of_ok (params_eq_ok.2 ⟨hparams, rfl⟩), run_bind_of_ok (run_context ..)]
  dsimp only
  cases hcreate : s.parent.createConsumer c.chainId m.context.time params.unbondingPeriod
    m.world with
  | mk result world =>
    cases result with
    | error reason =>
      rw [run_bind_of_error (run_registerConsumer_of_error hcreate)]
      exact .inr ⟨rfl, _, rfl⟩
    | ok consumer =>
      rw [run_bind, run_registerConsumer_of_ok hcreate, putPendingInit, put]
      dsimp only
      by_cases hfits : Stored.fits consumer = true
      · rw [if_pos hfits, if_pos hfits]
        exact .inl ⟨consumer, rfl, hfits, rfl⟩
      · rw [if_neg hfits, if_neg hfits]
        exact .inr ⟨rfl, _, rfl⟩

/-- The registration of a chainlet that has to be registered. -/
theorem run_registerForVersion (hshows : reg.ShownBy (Overlay.mk s.store m.context.updates))
    {version : StackVersion} (hneeded : ¬ (c.isConsumer || !version.isConsumer) = true) :
    let enlisted := s.parent.enlist reg.params? m.context.time c.chainId m.world
    (∃ consumer, enlisted.1 = some consumer ∧ Stored.fits consumer = true ∧
      (registerForVersion c version).run s m = (.ok (c.join consumer), { m with
        world := enlisted.2
        context := { m.context with
          updates := m.context.updates.insert (Entry.pendingInit c.chainId).key
            (Stored.encode consumer)
          events := m.context.events ++ [.registerConsumer c.chainId consumer] } })) ∨
    enlisted.1 = none ∧ ∃ failure, (registerForVersion c version).run s m =
      (.error failure, { m with world := enlisted.2 }) := by
  have hparams := run_params_of_shows hshows
  cases hgiven : reg.params? with
  | none =>
    rw [hgiven] at hparams
    rw [registerForVersion, if_neg hneeded, run_bind_of_error hparams]
    exact .inr ⟨rfl, _, rfl⟩
  | some params =>
    rw [hgiven] at hparams
    exact run_registerForVersion_of_params (params_eq_ok.1 hparams).1 hneeded

/-- The record of a chainlet that joins can be stored if the name of the consumer can. -/
theorem fits_join? {consumer? : Option ConsumerId} (hc : Stored.fits c = true)
    (hconsumer : ∀ consumer, consumer? = some consumer → Stored.fits consumer = true) :
    Stored.fits (c.join? consumer?) = true := by
  cases consumer? with
  | none => exact hc
  | some consumer =>
    have hconsumer := hconsumer consumer rfl
    simp only [Chainlet.join?, Chainlet.join, Stored.fits, Bool.and_eq_true] at hc ⊢
    exact ⟨⟨hc.1.1, hconsumer⟩, hc.2⟩

/-- The record of a chainlet that is moved can be stored if the version can. -/
theorem fits_moved (hc : Stored.fits c = true) (htarget : Stored.fits target = true) :
    Stored.fits { c with version := target } = true := by
  simp only [Stored.fits, Bool.and_eq_true] at hc htarget ⊢
  exact ⟨⟨⟨hc.1.1.1, htarget⟩, hc.1.2⟩, hc.2⟩

/-- A chainlet is moved to a version. -/
theorem leaves_applyVersion (consumer? : Option ConsumerId)
    (hshows : (reg.await? c.chainId consumer?).ShownBy (Overlay.mk s.store m.context.updates))
    (hfits : Stored.fits { c.join? consumer? with version := target } = true) :
    ∃ m', (applyVersion (c.join? consumer?) target true).run s m = (.ok (), m') ∧
      m'.world = m.world ∧
      Leaves s m m' [.upgradeChainlet c.chainId c.version target true]
        (reg.moved c target (.moved consumer?)) := by
  refine ⟨_, bind_eq_ok.2 ⟨(), _, put_eq_ok.2 ⟨hfits, rfl⟩, run_emit _⟩, rfl, rfl, rfl, ?_, ?_⟩
  · rw [Chainlet.chainId_join?, Chainlet.version_join?]
  · exact hshows.putChainlet hfits

/-- Stacks are read as the registry has them. -/
theorem run_stack?_of_shows (hshows : reg.ShownBy (Overlay.mk s.store m.context.updates))
    (name : String) : (stack? name : Execution ω _).run s m = (.ok (reg.catalog.get? name), m) := by
  have hread : Readable.stack? (Overlay.mk s.store m.context.updates) name =
      .ok (reg.catalog.get? name) := hshows.catalog.read? name
  rw [run_stack?, hread]
  rfl

/-- **The turn of a chainlet.** It ends as the parent chain has it end, and it never fails. -/
theorem run_moveTo (hshows : reg.ShownBy (Overlay.mk s.store m.context.updates))
    (hheld : reg.chainlets.get? c.chainId = some c)
    (henabled : Catalog.Enables reg.catalog c.stack target) :
    let come := s.parent.fate reg m.context.time c target m.world
    ∃ m', (moveTo c target).run s m = (.ok come.1.isMoved, m') ∧ m'.world = come.2 ∧
      Leaves s m m' (come.1.events c target) (reg.moved c target come.1) := by
  obtain ⟨stack, version, hstack, henabled⟩ := henabled
  have hversion : ((reg.catalog.get? c.stack).bind fun stack => stack.enabled? target) =
      some version := by
    rw [hstack]
    exact henabled
  have hconsumer : reg.catalog.runsConsumer c.stack target = version.isConsumer := by
    rw [Catalog.runsConsumer, hversion]
    rfl
  have hc := hshows.chainlets.fits hheld
  have htarget : Stored.fits target = true := by
    have hname := fits_enabled? (hshows.catalog.fits hstack) henabled
    rwa [(Stack.version?_of_enabled? henabled).1] at hname
  rw [moveTo, run_bind_of_ok (run_stack?_of_shows hshows _), hversion, Parent.fate,
    Chainlet.mustJoin, hconsumer]
  dsimp only
  have hjoins : (!c.isConsumer && version.isConsumer) = !(c.isConsumer || !version.isConsumer) := by
    rw [Bool.not_or, Bool.not_not]
  by_cases hready : (c.isConsumer || !version.isConsumer) = true
  · -- The chainlet can run the version as it is.
    obtain ⟨m', hrun, hworld, hleaves⟩ := leaves_applyVersion none hshows
      (fits_moved hc htarget)
    have hmove : (do
        let c ← registerForVersion c version
        applyVersion c target true : Execution ω Unit).run s m = (.ok (), m') := by
      rw [registerForVersion, if_pos hready]
      exact hrun
    rw [if_neg (by rw [hjoins, hready]; exact Bool.false_ne_true),
      run_bind_of_ok (run_outcome (run_atomic_of_ok hmove))]
    exact ⟨m', rfl, hworld, hleaves⟩
  · rw [if_pos (by rw [hjoins, Bool.eq_false_iff.2 hready]; rfl)]
    rcases run_registerForVersion hshows hready with
      ⟨consumer, henlisted, hfits, hregister⟩ | ⟨hrefused, failure, hregister⟩
    · -- It joins.
      obtain ⟨m', hrun, hworld, hleaves⟩ := leaves_applyVersion (some consumer) (m := { m with
          world := (s.parent.enlist reg.params? m.context.time c.chainId m.world).2
          context := { m.context with
            updates := m.context.updates.insert (Entry.pendingInit c.chainId).key
              (Stored.encode consumer)
            events := m.context.events ++ [.registerConsumer c.chainId consumer] } })
        (hshows.await c.chainId hfits)
        (fits_moved (fits_join? hc fun _ heq => Option.some.inj heq ▸ hfits) htarget)
      have hmove : (do
          let c ← registerForVersion c version
          applyVersion c target true : Execution ω Unit).run s m = (.ok (), m') :=
        (run_bind_of_ok hregister).trans hrun
      rw [henlisted, run_bind_of_ok (run_outcome (run_atomic_of_ok hmove))]
      refine ⟨m', rfl, hworld, ⟨hleaves.time, hleaves.tree, ?_, hleaves.shows⟩⟩
      rw [hleaves.events, List.append_assoc]
      rfl
    · -- It cannot join. Nothing has been written, so nothing is rolled back.
      have hmove := run_atomic_of_error (run_bind_of_error hregister
        (f := fun c => applyVersion c target true))
      rw [hrefused, run_bind_of_ok (run_outcome hmove)]
      refine ⟨_, rfl, rfl, rfl, ?_, (List.append_nil _).symm, ?_⟩
      · exact if_pos rfl
      · change (reg.moved c target .refused).ShownBy _
        rw [Registry.moved_refused hheld]
        exact hshows

/-- **Chainlets have their turns one after the other.** What is returned is how many were moved. -/
theorem run_moveAll {moves : List (Chainlet × String)}
    (hshows : reg.ShownBy (Overlay.mk s.store m.context.updates)) (hplanned : Planned reg moves)
    (henabled : ∀ move ∈ moves, Catalog.Enables reg.catalog move.1.stack move.2) :
    let turns := s.parent.fates reg m.context.time moves m.world
    ∃ m', (moveAll moves).run s m = (.ok (turns.countP (·.2.isMoved)), m') ∧
      Leaves s m m' (turns.flatMap fun turn => turn.2.events turn.1.1 turn.1.2)
        (reg.movedAll turns) := by
  induction moves generalizing reg m with
  | nil => exact ⟨m, rfl, rfl, rfl, (List.append_nil _).symm, hshows⟩
  | cons move rest ih =>
    obtain ⟨c, target⟩ := move
    obtain ⟨m₁, hrun, hworld, hleaves⟩ := run_moveTo hshows
      (hplanned.held _ List.mem_cons_self) (henabled _ List.mem_cons_self)
    rw [Parent.fates]
    generalize s.parent.fate reg m.context.time c target m.world = come at *
    have hothers (chainId : String) (hne : chainId ≠ c.chainId) :
        (reg.moved c target come.1).chainlets.get? chainId = reg.chainlets.get? chainId := by
      rw [Registry.get?_chainlets_moved, if_neg hne]
    obtain ⟨m', hrest, hleaves'⟩ := @ih _ m₁ hleaves.shows (hplanned.tail hothers)
      fun other hother => (Registry.catalog_moved come.1).symm ▸
        henabled other (List.mem_cons_of_mem _ hother)
    rw [hworld, hleaves.time, Registry.fates_moved] at hrest hleaves'
    refine ⟨m', ?_, hleaves.trans hleaves'⟩
    rw [moveAll, run_bind_of_ok hrun, run_bind_of_ok hrest, List.countP_cons]
    cases come.1.isMoved <;> rfl

/-! ### The scan -/

/-- The turns of a scan over a registry that a machine shows. -/
def scanTurns (s : Surroundings ω) (reg : Registry) (t : VersionTree) (m : Machine ω) :
    List ((Chainlet × String) × Fate) :=
  s.parent.fates reg m.context.time (t.plan (reg.chainlets.toList.map (·.2))) m.world

/-- The scan makes the moves that are planned, if all versions are versions. -/
theorem run_autoUpgrade_eq {m₁ : Machine ω}
    (hshows : reg.ShownBy (Overlay.mk s.store m.context.updates))
    (htree : (tree : Execution ω VersionTree).run s m = (.ok t, m₁))
    (hparses : ∀ c ∈ reg.chainlets.toList.map (·.2), ∃ v, Version.parse c.version = .ok v) :
    (autoUpgrade : Execution ω Nat).run s m =
      (moveAll (t.plan (reg.chainlets.toList.map (·.2)))).run s m₁ := by
  have hread : (liftM (Readable.allChainlets (Overlay.mk s.store m.context.updates)) :
      Execution ω _).run s m = (.ok (reg.chainlets.toList.map (·.2)), m) :=
    liftStorage_eq_ok.2 ⟨hshows.allChainlets, rfl⟩
  rw [autoUpgrade, run_bind_of_ok (run_view ..), run_bind_of_ok hread, run_bind_of_ok htree,
    run_bind_of_ok (run_autoTargets hparses)]

/-- The use of a tree that is there leaves it loaded. -/
theorem run_tree_of_fst (h : ((tree : Execution ω VersionTree).run s m).1 = .ok t) :
    ∃ staged log, (tree : Execution ω VersionTree).run s m =
        (.ok t, { m with context := { m.context with tree := staged }, log }) ∧
      staged.tree? = some t := by
  rcases loadTree_cases s m with ⟨staged, log, hload, -, t', ht'⟩ | ⟨failure, hload, -⟩
  · have hrun : (tree : Execution ω VersionTree).run s m = (.ok (staged.tree?.getD ∅), { m with
        context := { m.context with tree := staged }, log }) := by
      rw [tree, run_bind_of_ok hload]
      rfl
    rw [hrun, ht'] at h
    cases h
    exact ⟨staged, log, by rw [hrun, ht'], ht'⟩
  · rw [tree, run_bind_of_error hload] at h
    cases h

/-- The use of a tree that is loaded changes nothing. -/
theorem run_tree_of_loaded (h : m.context.tree.tree? = some t) :
    (tree : Execution ω VersionTree).run s m = (.ok t, m) := by
  have hload : (loadTree : Execution ω Unit).run s m = (.ok (), m) := by
    rw [run, loadTree, if_pos (by rw [h]; rfl)]
  rw [tree, run_bind_of_ok hload, run_bind_of_ok (run_context ..), h]
  rfl

/-- What the scan leaves. The number that it returns is `n`, and its events are `told`. -/
structure Scanned (s : Surroundings ω) (reg : Registry) (t : VersionTree) (m m' : Machine ω)
    (n : Nat) (told : List Event) (reg' : Registry) : Prop where
  shows : reg'.ShownBy (Overlay.mk s.store m'.context.updates)
  events : m'.context.events = m.context.events ++ told
  /-- Only records of chainlets and marks of who waits change. -/
  rest : reg'.catalog = reg.catalog ∧ reg'.count = reg.count ∧ reg'.params? = reg.params?
  /-- Every chainlet that is behind has a turn. It is moved, and waits as the consumer that was
  registered for it, if it had to join; or its registration failed, and it is left as it is. -/
  behind : ∀ c target, reg.chainlets.get? c.chainId = some c → c.Behind t target →
    (∃ consumer?, ((c, target), .moved consumer?) ∈ scanTurns s reg t m ∧
      (consumer?.isSome = true ↔ c.mustJoin reg.catalog target = true) ∧
      reg'.chainlets.get? c.chainId = some { c.join? consumer? with version := target } ∧
      reg'.waiting.get? c.chainId = consumer?.or (reg.waiting.get? c.chainId)) ∨
    ((c, target), .refused) ∈ scanTurns s reg t m ∧ c.mustJoin reg.catalog target = true ∧
      (∃ world, (s.parent.enlist reg.params? m.context.time c.chainId world).1 = none) ∧
      reg'.chainlets.get? c.chainId = some c ∧
      reg'.waiting.get? c.chainId = reg.waiting.get? c.chainId
  /-- Everyone else is left alone. -/
  others : ∀ chainId, (∀ c target, reg.chainlets.get? chainId = some c → ¬ c.Behind t target) →
    reg'.chainlets.get? chainId = reg.chainlets.get? chainId ∧
      reg'.waiting.get? chainId = reg.waiting.get? chainId
  /-- The events are those of the turns. Whoever is refused has none. -/
  told_eq : told = (scanTurns s reg t m).flatMap fun turn => turn.2.events turn.1.1 turn.1.2
  /-- What is returned is the number of chainlets that were moved. -/
  moved : n = (reg.chainlets.toList.map (·.2)).countP fun c =>
    reg'.chainlets.get? c.chainId ≠ some c
  /-- It is the number of the events that tell of moves. -/
  upgrades : n = told.countP Event.isUpgrade
  /-- All of these are marked as automatic. -/
  automatic : ∀ chainId source target automatic,
    .upgradeChainlet chainId source target automatic ∈ told → automatic = true

/-- The events of turns that tell of moves are as many as the chainlets that are moved. -/
theorem countP_events (turns : List ((Chainlet × String) × Fate)) :
    (turns.flatMap fun turn => turn.2.events turn.1.1 turn.1.2).countP Event.isUpgrade =
      turns.countP (·.2.isMoved) := by
  induction turns with
  | nil => rfl
  | cons turn rest ih =>
    obtain ⟨⟨c, target⟩, fate⟩ := turn
    rw [List.flatMap_cons, List.countP_append, List.countP_cons, ih, Nat.add_comm]
    congr 1
    cases fate with
    | refused => rfl
    | moved consumer? => cases consumer? <;> rfl

/-- What is told of moves is told as automatic. -/
theorem automatic_of_mem_events {turns : List ((Chainlet × String) × Fate)}
    {chainId source latest : String} {automatic : Bool}
    (h : .upgradeChainlet chainId source latest automatic ∈
      turns.flatMap fun turn => turn.2.events turn.1.1 turn.1.2) : automatic = true := by
  obtain ⟨⟨⟨c, target⟩, fate⟩, -, hevent⟩ := List.mem_flatMap.1 h
  cases fate with
  | refused => cases hevent
  | moved consumer? =>
    rcases List.mem_append.1 hevent with hjoining | hlast
    · cases consumer? with
      | none => cases hjoining
      | some consumer => cases List.mem_singleton.1 hjoining
    · cases List.mem_singleton.1 hlast
      rfl

/-- The chainlets that are behind are moved to what their stacks have enabled. -/
theorem enables_of_behind (hcatalog : Catalog.WellFormed reg.catalog) (ht : t.Indexes reg.catalog)
    (h : c.Behind t target) : Catalog.Enables reg.catalog c.stack target :=
  ht.enables_latestCompatible hcatalog h.offered h.other

/-- A chainlet that was moved to what the tree offers is not behind any more. -/
theorem not_behind_record (h : c.Behind t target) (consumer? : Option ConsumerId)
    (latest : String) :
    ¬ ({ c.join? consumer? with version := target } : Chainlet).Behind t latest := by
  intro hagain
  have hoffered := hagain.offered
  rw [Chainlet.stack_join?, VersionTree.latestCompatible_idem h.offered] at hoffered
  exact hagain.other (Except.ok.inj hoffered).symm

/-- What is planned for stored chainlets can be done. -/
theorem planned_plan (hreg : reg.Filed) (t : VersionTree) :
    Planned reg (t.plan (reg.chainlets.toList.map (·.2))) := by
  refine .of_sublist hreg (by rw [t.map_fst_plan]; exact List.filter_sublist) fun move hmove => ?_
  obtain ⟨-, hbehind⟩ := VersionTree.mem_plan_iff.1 hmove
  exact ⟨hbehind.idle, VersionTree.kind_latestCompatible hbehind.offered⟩

theorem mem_chainlets_iff (hreg : reg.Filed) :
    c ∈ reg.chainlets.toList.map (·.2) ↔ reg.chainlets.get? c.chainId = some c := by
  rw [List.mem_map]
  constructor
  · rintro ⟨⟨chainId, c⟩, he, rfl⟩
    exact hreg.held_chainlet (OrderedMap.get?_eq_some_iff.2 he)
  · exact fun hc => ⟨(c.chainId, c), OrderedMap.get?_eq_some_iff.1 hc, rfl⟩

/-- Who has a turn is behind, and who is behind has a turn. -/
theorem mem_scanTurns (hreg : reg.Filed) :
    (∀ {c target fate}, ((c, target), fate) ∈ scanTurns s reg t m →
      reg.chainlets.get? c.chainId = some c ∧ c.Behind t target) ∧
    ∀ {c target}, reg.chainlets.get? c.chainId = some c → c.Behind t target →
      ∃ fate, ((c, target), fate) ∈ scanTurns s reg t m := by
  have hplan := s.parent.map_fst_fates reg m.context.time
    (t.plan (reg.chainlets.toList.map (·.2))) m.world
  constructor
  · intro c target fate h
    have hmem : (c, target) ∈ t.plan (reg.chainlets.toList.map (·.2)) :=
      hplan ▸ List.mem_map_of_mem h
    obtain ⟨hc, hbehind⟩ := VersionTree.mem_plan_iff.1 hmem
    exact ⟨(mem_chainlets_iff hreg).1 hc, hbehind⟩
  · intro c target hc hbehind
    have hmem := VersionTree.mem_plan_iff.2 ⟨(mem_chainlets_iff hreg).2 hc, hbehind⟩
    rw [← hplan] at hmem
    obtain ⟨⟨_, fate⟩, hturn, rfl⟩ := List.mem_map.1 hmem
    exact ⟨fate, hturn⟩

/-- No two turns of a scan are of one chainlet. -/
theorem pairwise_scanTurns (hreg : reg.Filed) :
    (scanTurns s reg t m).Pairwise fun turn turn' => turn.1.1.chainId ≠ turn'.1.1.chainId := by
  have hapart := (planned_plan hreg t).apart
  rwa [← s.parent.map_fst_fates reg m.context.time (t.plan (reg.chainlets.toList.map (·.2)))
    m.world, List.pairwise_map] at hapart

/-- What becomes of chainlets in the turns of a scan. -/
theorem movedAll_scanTurns (hreg : reg.Filed) :
    let reg' := reg.movedAll (scanTurns s reg t m)
    (∀ {c target fate}, ((c, target), fate) ∈ scanTurns s reg t m →
      reg'.chainlets.get? c.chainId = some (fate.record c target) ∧
        reg'.waiting.get? c.chainId = fate.consumer?.or (reg.waiting.get? c.chainId)) ∧
    ∀ {chainId}, (∀ c target, reg.chainlets.get? chainId = some c → ¬ c.Behind t target) →
      reg'.chainlets.get? chainId = reg.chainlets.get? chainId ∧
        reg'.waiting.get? chainId = reg.waiting.get? chainId := by
  refine ⟨fun hturn => reg.movedAll_of_mem (pairwise_scanTurns hreg) hturn, fun hcurrent => ?_⟩
  refine reg.movedAll_of_ne ?_
  rintro ⟨⟨c, target⟩, fate⟩ hturn rfl
  obtain ⟨hc, hbehind⟩ := (mem_scanTurns hreg).1 hturn
  exact hcurrent c target hc hbehind

/-- The chainlets whose records change are as many as those that are moved. -/
theorem countP_moved (hreg : reg.Filed) :
    (scanTurns s reg t m).countP (·.2.isMoved) = (reg.chainlets.toList.map (·.2)).countP fun c =>
      (reg.movedAll (scanTurns s reg t m)).chainlets.get? c.chainId ≠ some c := by
  obtain ⟨hmoved, hcurrent⟩ := movedAll_scanTurns (s := s) (t := t) (m := m) hreg
  calc (scanTurns s reg t m).countP (·.2.isMoved)
    _ = (scanTurns s reg t m).countP fun turn =>
        (reg.movedAll (scanTurns s reg t m)).chainlets.get? turn.1.1.chainId ≠ some turn.1.1 := by
      refine List.countP_congr ?_
      rintro ⟨⟨c, target⟩, fate⟩ hturn
      obtain ⟨-, hbehind⟩ := (mem_scanTurns hreg).1 hturn
      rw [(hmoved hturn).1, decide_eq_true_eq, ne_eq, Option.some.injEq]
      cases fate with
      | refused => simp [Fate.isMoved, Fate.record]
      | moved consumer? =>
        refine iff_of_true rfl fun hsame => hbehind.other ?_
        rw [← congrArg Chainlet.version hsame]
        rfl
    _ = ((t.plan (reg.chainlets.toList.map (·.2))).map (·.1)).countP fun c =>
        (reg.movedAll (scanTurns s reg t m)).chainlets.get? c.chainId ≠ some c := by
      rw [← s.parent.map_fst_fates reg m.context.time (t.plan _) m.world, List.countP_map,
        List.countP_map]
      rfl
    _ = _ := by
      rw [t.map_fst_plan, List.countP_filter]
      refine List.countP_congr fun c hc => ?_
      cases htarget : t.target? c with
      | some target => simp
      | none =>
        have hc := (mem_chainlets_iff hreg).1 hc
        have hsame := (@hcurrent c.chainId fun d target hd hbehind => by
          obtain rfl : c = d := Option.some.inj (hc.symm.trans hd)
          rw [VersionTree.target?_eq_some_iff.2 hbehind] at htarget
          cases htarget).1
        rw [hsame, hc]
        simp

/-- What the turns of a scan leave is what the scan leaves. -/
theorem Scanned.of_leaves {m₁ : Machine ω} (hreg : reg.Filed)
    (h : Leaves s m₁ m'
      ((scanTurns s reg t m).flatMap fun turn => turn.2.events turn.1.1 turn.1.2)
      (reg.movedAll (scanTurns s reg t m)))
    (hevents : m₁.context.events = m.context.events) :
    Scanned s reg t m m' ((scanTurns s reg t m).countP (·.2.isMoved))
      ((scanTurns s reg t m).flatMap fun turn => turn.2.events turn.1.1 turn.1.2)
      (reg.movedAll (scanTurns s reg t m)) where
  shows := h.shows
  events := by rw [h.events, hevents]
  rest := reg.rest_movedAll _
  behind c target hc hbehind := by
    obtain ⟨fate, hturn⟩ := (mem_scanTurns hreg).2 hc hbehind
    obtain ⟨hrecord, hwaiting⟩ := (movedAll_scanTurns hreg).1 hturn
    obtain ⟨world, rfl⟩ := Parent.exists_fate_of_mem_fates hturn
    rcases s.parent.fate_cases reg m.context.time c target world with
      ⟨consumer?, hfate, hjoins⟩ | ⟨hfate, hjoins, henlisted⟩
    · rw [hfate] at hturn hrecord hwaiting
      exact .inl ⟨consumer?, hturn, hjoins, hrecord, hwaiting⟩
    · rw [hfate] at hturn hrecord hwaiting
      exact .inr ⟨hturn, hjoins, ⟨world, henlisted⟩, hrecord, hwaiting⟩
  others _ := (movedAll_scanTurns hreg).2
  told_eq := rfl
  moved := countP_moved hreg
  upgrades := (countP_events _).symm
  automatic _ _ _ _ := automatic_of_mem_events

/-- Nobody is behind after a scan in which every registration worked. -/
theorem not_behind_of_unrefused (hreg : reg.Filed)
    (hunrefused : ∀ turn ∈ scanTurns s reg t m, turn.2 ≠ .refused)
    (hc : (reg.movedAll (scanTurns s reg t m)).chainlets.get? c.chainId = some c) :
    ¬ c.Behind t target := by
  obtain ⟨hmoved, hcurrent⟩ := movedAll_scanTurns (s := s) (t := t) (m := m) hreg
  by_cases hbefore : ∀ d latest, reg.chainlets.get? c.chainId = some d → ¬ d.Behind t latest
  · rw [(hcurrent hbefore).1] at hc
    exact hbefore c target hc
  · obtain ⟨d, latest, hd, hbehind⟩ : ∃ d latest, reg.chainlets.get? c.chainId = some d ∧
        d.Behind t latest := by
      simpa using hbefore
    have hid := hreg.chainlets _ d hd
    obtain ⟨fate, hturn⟩ := (mem_scanTurns hreg).2 (hid.symm ▸ hd) hbehind
    have hrecord := (hmoved hturn).1
    rw [hid, hc] at hrecord
    cases fate with
    | refused => exact absurd rfl (hunrefused _ hturn)
    | moved consumer? =>
      rw [Option.some.inj hrecord]
      exact not_behind_record hbehind consumer? target

/-- **The scan succeeds, and does what the turns come to.** Whoever is behind is moved, unless its
consumer cannot be registered; everyone else is left alone. If every registration worked, a scan
that follows at once finds nothing to do, and changes nothing. -/
theorem run_autoUpgrade (hreg : reg.WellFormed)
    (hshows : reg.ShownBy (Overlay.mk s.store m.context.updates))
    (htree : ((tree : Execution ω VersionTree).run s m).1 =
      VersionTree.rebuild (Overlay.mk s.store m.context.updates)) :
    ∃ t n m' told reg', VersionTree.rebuild (Overlay.mk s.store m.context.updates) = .ok t ∧
      (autoUpgrade : Execution ω Nat).run s m = (.ok n, m') ∧
      Scanned s reg t m m' n told reg' ∧
      ((∀ turn ∈ scanTurns s reg t m, turn.2 ≠ .refused) →
        (autoUpgrade : Execution ω Nat).run s m' = (.ok 0, m')) := by
  obtain ⟨t, ht, hindexes⟩ := VersionTree.rebuild_ok hshows.catalog hreg.catalog
  obtain ⟨staged, entries, hload, hstaged⟩ := run_tree_of_fst (htree.trans ht)
  have hparses {reg : Registry} (hreg : reg.WellFormed) :
      ∀ c ∈ reg.chainlets.toList.map (·.2), ∃ v, Version.parse c.version = .ok v := fun c hc =>
    (hreg.chainlets _ c ((mem_chainlets_iff hreg.filed).1 hc)).2.registered.parses hreg.catalog
  have hscan := run_autoUpgrade_eq hshows hload (hparses hreg)
  obtain ⟨m', hmoves, hleaves⟩ := @run_moveAll _ reg s
    { m with context := { m.context with tree := staged }, log := entries } _ hshows
    (planned_plan hreg.filed t) fun move hmove =>
      enables_of_behind hreg.catalog hindexes (VersionTree.mem_plan_iff.1 hmove).2
  rw [hmoves] at hscan
  have hscanned := Scanned.of_leaves (m := m) hreg.filed hleaves rfl
  refine ⟨t, _, m', _, _, ht, hscan, hscanned, fun hunrefused => ?_⟩
  -- The second scan finds the tree loaded, and an empty plan.
  obtain ⟨reg', hshows', hmoved⟩ := advances_autoUpgrade reg hreg s m _ m' hshows hscan
  obtain rfl := hscanned.shows.unique hshows'
  have hreg' := hmoved.wellFormed hreg
  have hplan : t.plan ((reg.movedAll (scanTurns s reg t m)).chainlets.toList.map (·.2)) = [] :=
    List.eq_nil_iff_forall_not_mem.2 fun move hmove => by
      obtain ⟨hc, hbehind⟩ := VersionTree.mem_plan_iff.1 hmove
      exact not_behind_of_unrefused hreg.filed hunrefused ((mem_chainlets_iff hreg'.filed).1 hc)
        hbehind
  have hloaded : m'.context.tree.tree? = some t := by rw [hleaves.tree]; exact hstaged
  rw [run_autoUpgrade_eq hscanned.shows (run_tree_of_loaded hloaded) (hparses hreg'), hplan]
  rfl

/-- A chainlet on the version `1.0.0` of the stack `alpha`. -/
def outdatedChainlet (chainId : String) (autoUpgrade : Bool) : Chainlet where
  chainId
  name := "first"
  launcher := "launcher"
  maintainers := ["launcher"]
  stack := "alpha"
  version := "1.0.0"
  status := .online
  autoUpgrade
  isConsumer := false
  consumer? := none
  spawnTime := ⟨0⟩
  isService := false
  upgrade? := none

/-- A genesis state with two chainlets that take part in automatic upgrades and one that does not,
and a newer version in their series, which runs as a consumer. -/
def outdated : Genesis where
  params := {}
  catalog := [⟨"alpha", "", [],
    [⟨"a", "1.0.0", "a", true, false⟩, ⟨"b", "1.1.0", "b", true, true⟩]⟩]
  chainlets := [outdatedChainlet "alpha_1-1" true, outdatedChainlet "alpha_2-1" false,
    outdatedChainlet "alpha_3-1" true]

/-- A host on a parent chain that can create one consumer and no more. -/
def scarceHost : Surroundings Host.World where
  store := ∅
  parent := { Host.World.parent true with
    createConsumer := fun chainId time unbonding w =>
      if w.nextConsumer = 0 then w.createConsumer chainId time unbonding
      else (.error "consumer limit reached", w) }
  cache := .unloaded

/-- What the import of the genesis state leaves. -/
def outdatedMachine : Machine Host.World :=
  ((importGenesis outdated).run scarceHost ⟨.fresh ⟨1⟩ ⟨0⟩, .initial, []⟩).2

theorem shownBy_outdated :
    outdated.registry.ShownBy (Overlay.mk scarceHost.store outdatedMachine.context.updates) :=
  shownBy_importGenesis outdated _ _ _ _ _ _ (by decide +kernel)

theorem wellFormed_outdated : outdated.WellFormed where
  accepted := by decide +kernel
  consumer := by decide
  upgrade c hc upgrade hupgrade := by
    have hidle : ∀ c ∈ outdated.chainlets, c.upgrade? = none := by decide
    rw [hidle c hc] at hupgrade
    cases hupgrade

/-- Of two chainlets that are behind, the first one gets the only consumer that there is, and is
moved. The other one is refused. -/
theorem run_autoUpgrade_scarce :
    outdated.registry.WellFormed ∧
    ∃ t n m' told reg',
      (autoUpgrade : Execution Host.World Nat).run scarceHost outdatedMachine = (.ok n, m') ∧
      Scanned scarceHost outdated.registry t outdatedMachine m' n told reg' ∧ n = 1 ∧
      m'.context.events = [.registerConsumer "alpha_1-1" ⟨"0"⟩,
        .upgradeChainlet "alpha_1-1" "1.0.0" "1.1.0" true] ∧
      reg'.chainlets.get? "alpha_3-1" = some (outdatedChainlet "alpha_3-1" true) := by
  have htree : ((tree : Execution Host.World VersionTree).run scarceHost outdatedMachine).1 =
      VersionTree.rebuild (Overlay.mk scarceHost.store outdatedMachine.context.updates) := by
    rw [run_tree]
    exact Context.nextTree_of_none rfl
  obtain ⟨t, n, m', told, reg', ht, hrun, hscanned, -⟩ :=
    run_autoUpgrade wellFormed_outdated.registry shownBy_outdated htree
  have hresult : ((autoUpgrade : Execution Host.World Nat).run scarceHost outdatedMachine).1 =
      .ok 1 := by decide +kernel
  have hevents : ((autoUpgrade : Execution Host.World Nat).run scarceHost
      outdatedMachine).2.context.events = [.registerConsumer "alpha_1-1" ⟨"0"⟩,
        .upgradeChainlet "alpha_1-1" "1.0.0" "1.1.0" true] := by decide +kernel
  have hlast : Readable.chainlet? (Overlay.mk scarceHost.store ((autoUpgrade :
      Execution Host.World Nat).run scarceHost outdatedMachine).2.context.updates) "alpha_3-1" =
      .ok (some (outdatedChainlet "alpha_3-1" true)) := by decide +kernel
  rw [hrun] at hresult hevents hlast
  cases hresult
  exact ⟨wellFormed_outdated.registry, t, 1, m', told, reg', hrun, hscanned, rfl, hevents,
    hscanned.shows.chainlet?_eq_some_iff.1 hlast⟩

end Operation

end Chainlets
