import Chainlets.Host.World
import Chainlets.Proofs.Node.Journal
import Chainlets.Proofs.Registry.Turns

/-!
# Validators are lent once

On a node that imports no second genesis state, every chainlet is registered as a consumer at most
once, and initialized at most once, after that and under the same name. The journal tells where it
stands: the chainlet is marked as waiting, under the name in its record, exactly when the journal
tells that it was registered and does not tell that it was initialized.

Initialization is left to the beginning of a block. There every waiting consumer has its turn, and
whether it is initialized is up to the parent chain at its turn. What becomes of the others does not
count, except that the block may fail as a whole: over the scan, which comes before, or over the
host's own work, which comes after. Then nothing is done.

Of the genesis state nothing has to be known. One whose chainlets are consumers already gives a
journal that does not tell of them.

## Main definitions

* `Controller.Scanned`, `Controller.Begins` — how a block begins.
* `Node.Lends` — what the journal tells of consumers, and who is initialized.

## Main results

* `Registry.Follows.lent` — the journal tells how far the lending has come.
* `Controller.perform_begins` — **every waiting consumer has its turn.**
* `Node.lends_run` — **consumers are registered and initialized once.**
-/

namespace Chainlets

open Execution

/-- From nothing on, the events tell how far the lending to a chainlet has come. -/
theorem Registry.Follows.lent {imported? : Option Genesis} {events : List Event} {reg : Registry}
    (h : Registry.Follows imported? .empty events reg) (chainId : String) :
    reg.Lent chainId (events.filter (Event.isOfConsumer chainId)) := by
  rw [← List.nil_append (events.filter _)]
  cases h with
  | acts acts => exact acts.lent .unregistered
  | founded imported accepted acts => exact acts.lent .unregistered

namespace Controller

variable {ω : Type} {reg : Registry} {store : Store} {parent : Parent ω} {live : Live ω}

/-! ### The beginning of a block -/

/-- The beginning of a block has come to the turns of consumers: the scan has initialized none, and
whoever waited before has a turn. -/
structure Scanned (store : Store) (parent : Parent ω) (live : Live ω) (height : Height)
    (m : Machine ω) (queue : List (String × ConsumerId)) : Prop where
  run : Operation.scan.run ⟨store, parent, live.cache⟩ ⟨live.context, live.world, live.log⟩ =
    (.ok height, m)
  events : Event.AddsNoInit live.context.events m.context.events
  queued : Readable.pendingInits (Overlay.mk store m.context.updates) = .ok queue
  turn : ∀ chainId consumer,
    Readable.pendingInit? (Overlay.mk store live.context.updates) chainId = .ok (some consumer) →
    ∃ world, ((chainId, consumer), world) ∈ parent.turns queue m.world

/-- How the beginning of a block ends. -/
inductive Begins (store : Store) (parent : Parent ω) (live : Live ω) :
    Except Failure Response → Context → Prop
  /-- The scan fails, and nothing is done. -/
  | unscanned {failure : Failure} {m : Machine ω} {after : Context}
      (scan : Operation.scan.run ⟨store, parent, live.cache⟩ ⟨live.context, live.world, live.log⟩ =
        (.error failure, m))
      (updates : after.updates = live.context.updates)
      (events : after.events = live.context.events) : Begins store parent live (.error failure) after
  /-- The host's own work fails after all turns, and nothing is done. -/
  | undone {height : Height} {m : Machine ω} {queue : List (String × ConsumerId)}
      {housekeeping : Height → Time → ω → Called ω Unit} {reason : String} {after : Context}
      (scanned : Scanned store parent live height m queue)
      (works : parent.housekeeping? = some housekeeping)
      (fails : (housekeeping height m.context.time (parent.afterTurns queue m.world)).1 =
        .error reason)
      (updates : after.updates = live.context.updates)
      (events : after.events = live.context.events) :
      Begins store parent live (.error (.collaborator reason)) after
  /-- Those who were ready at their turns are initialized, and the others wait. -/
  | done {height : Height} {m : Machine ω} {queue : List (String × ConsumerId)}
      {told : List Event} {waiting? : String → Option ConsumerId} {after : Context}
      (scanned : Scanned store parent live height m queue)
      (events : after.events = m.context.events ++ told)
      (waits : ∀ chainId, Readable.pendingInit? (Overlay.mk store after.updates) chainId =
        .ok (waiting? chainId))
      (served : parent.Served queue m.world waiting? told) :
      Begins store parent live (.ok .done) after

/-- A scan that succeeds leaves every waiting consumer its turn: it marks no chainlet that is marked
already, and takes no mark away. -/
theorem scanned_of_run (hreg : reg.Filed)
    (hshows : reg.ShownBy (Overlay.mk store live.context.updates))
    (htree : ∀ t, ((tree : Execution ω VersionTree).run ⟨store, parent, live.cache⟩
      ⟨live.context, live.world, live.log⟩).1 = .ok t → t.Indexes reg.catalog)
    (hlent : ∀ chainId, ∃ told, reg.Lent chainId told) {height : Height} {m : Machine ω}
    (hrun : Operation.scan.run ⟨store, parent, live.cache⟩ ⟨live.context, live.world, live.log⟩ =
      (.ok height, m)) :
    ∃ reg' : Registry, reg'.ShownBy (Overlay.mk store m.context.updates) ∧
      Scanned store parent live height m reg'.waiting.toList := by
  obtain ⟨events, reg', hevents, hshows', -, hacts⟩ :=
    (Operation.doesAt_scan hreg hshows htree).done hrun
  have htacit : Event.AddsNoInit live.context.events m.context.events :=
    (Operation.keeps_scan Frame.allowsPackets_tacit.toAllowsCalls).rel hrun
  refine ⟨reg', hshows', hrun, htacit, hshows'.waiting.readAll, fun chainId consumer hwaits => ?_⟩
  obtain ⟨more, hmore, hnone⟩ := htacit
  obtain rfl : events = more := List.append_cancel_left (hevents.symm.trans hmore)
  obtain ⟨told, htold⟩ := hlent chainId
  have hbefore : reg.waiting.get? chainId = some consumer :=
    Except.ok.inj ((hshows.waiting.read? chainId).symm.trans hwaits)
  rw [Registry.Lent, hbefore] at htold
  have hafter : reg'.waiting.get? chainId = some consumer := by
    refine Lent.waiting?_eq htold (hacts.lent ?_) fun consumer channel hinit => ?_
    · rwa [Registry.Lent, hbefore]
    · cases hnone _ (List.mem_of_mem_filter hinit)
  exact Parent.exists_turn (OrderedMap.get?_eq_some_iff.1 hafter) parent m.world

/-- The beginning of a block is executed in three parts. -/
theorem perform_beginBlock (store : Store) (parent : Parent ω) (live : Live ω) :
    perform store parent .beginBlock live = execute store parent (do
      let height ← Operation.scan
      Operation.initConsumers
      Operation.keepHouse height
      return .done) live := by
  have hparts : (do Operation.beginBlock; return .done : Execution ω Response) = (do
      let height ← Operation.scan
      Operation.initConsumers
      Operation.keepHouse height
      return .done) := by
    rw [Operation.beginBlock_eq]
    simp only [bind_assoc]
  rw [← hparts]
  rfl

/-- **Every waiting consumer has its turn at the beginning of a block**, unless the block fails, and
then nothing is done. -/
theorem perform_begins (hreg : reg.Filed)
    (hshows : reg.ShownBy (Overlay.mk store live.context.updates))
    (htree : ∀ t, ((tree : Execution ω VersionTree).run ⟨store, parent, live.cache⟩
      ⟨live.context, live.world, live.log⟩).1 = .ok t → t.Indexes reg.catalog)
    (hlent : ∀ chainId, ∃ told, reg.Lent chainId told) :
    let after := perform store parent .beginBlock live
    Begins store parent live after.1 after.2.context := by
  intro after
  rw [show after = _ from perform_beginBlock store parent live]
  cases hscan : Operation.scan.run ⟨store, parent, live.cache⟩
      ⟨live.context, live.world, live.log⟩ with
  | mk result m =>
    cases result with
    | error failure =>
      obtain ⟨hresult, hupdates, hevents⟩ := execute_of_error (run_bind_of_error hscan)
      rw [hresult]
      exact .unscanned hscan hupdates hevents
    | ok height =>
      obtain ⟨reg₁, hshows₁, hscanned⟩ := scanned_of_run hreg hshows htree hlent hscan
      obtain ⟨m₂, told, reg₂, hturns, htaken⟩ :=
        @Operation.run_initConsumers _ reg₁ ⟨store, parent, live.cache⟩ m hshows₁
      have hrun : (do
          let height ← Operation.scan
          Operation.initConsumers
          Operation.keepHouse height
          return Response.done : Execution ω Response).run ⟨store, parent, live.cache⟩
            ⟨live.context, live.world, live.log⟩ = (do
          Operation.keepHouse height
          return .done : Execution ω Response).run ⟨store, parent, live.cache⟩ m₂ := by
        rw [run_bind_of_ok hscan, run_bind_of_ok hturns]
      rcases @Operation.run_keepHouse _ ⟨store, parent, live.cache⟩ m₂ height with
        ⟨m₃, hkept, hcontext⟩ | ⟨housekeeping, reason, m₃, hworks, hfails, hkept⟩
      · obtain ⟨hresult, hcontext'⟩ := execute_of_ok (hrun.trans (run_bind_of_ok hkept))
        rw [hresult, hcontext', hcontext]
        exact .done hscanned htaken.events htaken.shows.waiting.read? htaken.served
      · obtain ⟨hresult, hupdates, hevents⟩ :=
          execute_of_error (hrun.trans (run_bind_of_error hkept))
        rw [hresult]
        rw [htaken.time, htaken.world] at hfails
        exact .undone hscanned hworks hfails hupdates hevents

/-! ### Other requests -/

theorem execute_tacit {α : Type} {x : Execution ω α} (h : Keeps Frame.tacit x) :
    Event.AddsNoInit live.context.events (execute store parent x live).2.context.events := by
  rcases execute_ends store parent x live with
    ⟨a, m', hrun, -, hcontext⟩ | ⟨failure, m', -, -, -, hevents⟩
  · rw [hcontext]
    exact h.rel hrun
  · rw [hevents]
    exact .refl _

/-- **Nothing else than the beginning of a block initializes a consumer.** -/
theorem perform_tacit {request : Request} (hother : request ≠ .beginBlock) (store : Store)
    (parent : Parent ω) (live : Live ω) : Event.AddsNoInit live.context.events
      (perform store parent request live).2.context.events := by
  have hcallback (cb : Callback) : Event.AddsNoInit live.context.events
      (perform store parent cb.request live).2.context.events := by
    rw [(cb.perform_request store parent live).1]
    exact execute_tacit (cb.keeps_execution Frame.allowsStacks_tacit.toAllowsRecords)
  cases request with
  | importGenesis genesis =>
    have himport := Operation.keeps_importGenesis (Frame.allowsStacks_tacit (ω := ω)) genesis
    exact execute_tacit (himport.bind fun _ => Keeps.pure _)
  | handle msg =>
    change Event.AddsNoInit _ (handle store parent msg live).2.context.events
    rw [handle]
    split
    next => exact .refl _
    next =>
      exact execute_tacit
        (Operation.keeps_ofMessage Frame.allowsStacks_tacit Frame.allowsPackets_tacit msg)
  | setStatus chainId status =>
    have hset := Operation.keeps_setStatus
      (Frame.allowsStacks_tacit (ω := ω)).toAllowsRecords chainId status
    exact execute_tacit (hset.map _)
  | receive packet => exact hcallback (.received packet)
  | acknowledged packet answer => exact hcallback (.answered packet answer)
  | timedOut packet => exact hcallback (.expired packet)
  | beginBlock => exact absurd rfl hother

end Controller

namespace Node

/-- What the journal tells of consumers, and who is initialized when. -/
structure Lends (n : Node) (journal : List Event) : Prop where
  /-- The journal tells how far the lending to each chainlet has come, and so do its record and its
  mark in the store. -/
  ledger : ∀ chainId, ∃ c? waiting?, Readable.chainlet? n.store chainId = .ok c? ∧
    Readable.pendingInit? n.store chainId = .ok waiting? ∧
    Lent chainId c? waiting? (journal.filter (Event.isOfConsumer chainId))
  /-- At the beginning of a block every waiting consumer has its turn. -/
  begins : ∀ context, n.context? = some context → ∀ {ω : Type} (parent : Parent ω) (world : ω),
    let after := Controller.perform n.store parent .beginBlock ⟨context, n.cache, world, []⟩
    Controller.Begins n.store parent ⟨context, n.cache, world, []⟩ after.1 after.2.context
  /-- Nothing else initializes consumers. -/
  others : ∀ context, n.context? = some context → ∀ {ω : Type} (parent : Parent ω) (world : ω)
    (request : Request), request ≠ .beginBlock → Event.AddsNoInit context.events
      (Controller.perform n.store parent request ⟨context, n.cache, world, []⟩).2.context.events

variable {ω : Type}

/-- A traced node lends validators once. -/
theorem Traced.lends {imported? : Option Genesis} {journal : List Event} {n : Node}
    {reg : Registry} (h : Traced imported? journal n reg) : n.Lends journal where
  ledger chainId := ⟨_, _, h.committed.chainlet?_eq chainId, h.committed.waiting.read? chainId,
    h.follows.lent chainId⟩
  begins context hcontext ω parent world := by
    obtain ⟨reg', hshows, hfollows⟩ := h.staged context hcontext
    have hreg : reg'.Filed := hfollows.filed h.filed
    refine Controller.perform_begins hreg hshows (fun t ht => ?_) fun chainId => ?_
    · obtain ⟨t', hrebuilt, hnext⟩ := h.steady.coherent.next context hcontext
      rw [hnext parent world []] at ht
      cases ht
      exact (VersionTree.rebuild_eq_ok_iff hshows.catalog hreg.catalog).1 hrebuilt
    · exact ⟨_, (h.follows.trans hfollows).lent chainId⟩
  others context hcontext ω parent world request hother :=
    Controller.perform_tacit hother n.store parent _

/-- **Consumers are registered and initialized once**, in any run without a second import. -/
theorem lends_run {actions : List (Action ω)}
    (honce : (actions.filterMap Action.genesis?).length ≤ 1) :
    (start.run actions).Lends (start.journal actions) := by
  obtain ⟨reg, htraced⟩ := exists_traced_run honce
  exact htraced.lends

/-- A genesis state with a chainlet that takes part in automatic upgrades, which are made at every
block, and a newer version in its series that runs as a consumer. -/
def joining : Genesis where
  params := { automaticUpgradeInterval := 1 }
  catalog := [⟨"alpha", "", [],
    [⟨"a", "1.0.0", "a", true, false⟩, ⟨"b", "1.1.0", "b", true, true⟩]⟩]
  chainlets := [
    { chainId := "alpha_1-1", name := "first", launcher := "launcher", maintainers := ["launcher"]
      stack := "alpha", version := "1.0.0", status := .online, autoUpgrade := true
      isConsumer := false, consumer? := none, spawnTime := ⟨0⟩, isService := false
      upgrade? := none }]

/-- A parent chain on which the first consumer is launched and has a channel. -/
def launched : Host.World :=
  { Host.World.initial with
    consumers := (∅ : OrderedMap String Host.Consumer).insert "0"
      { Host.Consumer.blank with phase := .launched, channel? := some "channel-1" } }

/-- The genesis state is committed. In the next block the chainlet is upgraded and joins, but it is
not launched; in the block after that it is. Then another context is opened. -/
def joined : List (Action Host.World) :=
  let parent := Host.World.parent true
  begin joining ⟨1⟩ ⟨0⟩ parent .initial ++
    [.commit true .listening, .openContext ⟨2⟩ ⟨0⟩, .perform parent .initial .beginBlock,
      .commit true .listening, .openContext ⟨3⟩ ⟨0⟩, .perform parent launched .beginBlock,
      .commit true .listening, .openContext ⟨4⟩ ⟨0⟩]

theorem lends_joined :
    (joined.filterMap Action.genesis?).length ≤ 1 ∧
      (start.run joined).Lends (start.journal joined) ∧
      start.journal joined =
        [.registerConsumer "alpha_1-1" ⟨"0"⟩, .upgradeChainlet "alpha_1-1" "1.0.0" "1.1.0" true,
          .initConsumer "alpha_1-1" ⟨"0"⟩ "channel-1"] := by
  have honce : (joined.filterMap Action.genesis?).length ≤ 1 := by decide
  exact ⟨honce, lends_run honce, by decide +kernel⟩

end Node

end Chainlets
