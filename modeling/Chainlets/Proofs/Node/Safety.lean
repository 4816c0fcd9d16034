import Chainlets.Proofs.Node.Ascent
import Chainlets.Proofs.Node.Restart
import Chainlets.Proofs.Registry.Grounded
import Chainlets.Proofs.Upgrade.Stumbling

/-!
# Genesis states that are safe to run

A node is safe if every chainlet runs a version that its stack has, and no callback about a pending
upgrade fails over a version. Operations other than callbacks look at versions before they write
them. A callback writes the target version of a pending upgrade without looking at it, and makes a
plan name of it. So safety depends on the upgrades that were pending from the beginning.

The check of a genesis state does not look at them. It makes sure that every chainlet runs a version
of its stack, and says nothing of the target version of a pending upgrade: that may be one that the
stack does not have, and need not be a version at all. On a node with such a genesis state, the
confirmation of a consumer is enough to make it run what is not there; and if the target is no
version, the answers to the packet that scheduled the upgrade, and its timeout, fail.

There is nothing else to it. A genesis state that passes its check is safe to run exactly if the
target of every pending upgrade is a version of the stack, or is out of reach for callbacks.

## Main definitions

* `Backed` — every chainlet runs a version that its stack has.
* `Node.Safe` — and no callback fails over a version.
* `Genesis.Anchored` — the target of every pending upgrade is there, or out of reach.

## Main results

* `Controller.perform_firm` — an operation keeps a registry grounded.
* `Node.safe_run_iff` — **which genesis states are safe to run.**
* `Node.not_always_safe` — a genesis state that passes its check and is not.
-/

namespace Chainlets

open Execution Handshake

/-! ### Grounded states -/

/-- Every chainlet that can be read runs a version that its stack has. -/
def Backed {κ : Type} [Readable κ] (r : κ) : Prop :=
  ∀ chainId c, Readable.chainlet? r chainId = .ok (some c) →
    ∃ stack, Readable.stack? r c.stack = .ok (some stack) ∧
      (stack.version? c.version).isSome = true

/-- A state shows a registry that is filed and grounded. -/
def Firm {κ : Type} [Readable κ] (r : κ) : Prop :=
  ∃ reg : Registry, reg.Filed ∧ reg.Grounded ∧ reg.ShownBy r

namespace Firm

theorem empty : Firm (∅ : Store) :=
  ⟨.empty, Registry.wellFormed_empty.filed, Registry.grounded_empty, .empty⟩

theorem opened {store : Store} (h : Firm store) : Firm (Overlay.mk store ∅) := by
  obtain ⟨reg, hreg, hgrounded, hshows⟩ := h
  exact ⟨reg, hreg, hgrounded, hshows.opened⟩

theorem write {store : Store} {u : Updates} (h : Firm (Overlay.mk store u)) :
    Firm (store.write u) := by
  obtain ⟨reg, hreg, hgrounded, hshows⟩ := h
  exact ⟨reg, hreg, hgrounded, hshows.write⟩

end Firm

/-- What is registered can be read. -/
theorem Registry.ShownBy.registers_iff {reg : Registry} {κ : Type} [Readable κ] {r : κ}
    (h : reg.ShownBy r) {name version : String} :
    Catalog.Registers reg.catalog name version ↔
      ∃ stack, Readable.stack? r name = .ok (some stack) ∧
        (stack.version? version).isSome = true := by
  have hread : Readable.stack? r name = .ok (reg.catalog.get? name) := h.catalog.read? name
  rw [hread]
  simp [Catalog.Registers]

theorem Firm.backed {κ : Type} [Readable κ] {r : κ} (h : Firm r) : Backed r := by
  obtain ⟨reg, -, hgrounded, hshows⟩ := h
  intro chainId c hc
  exact hshows.registers_iff.1 (hgrounded chainId c (hshows.chainlet?_eq_some_iff.1 hc)).registered

/-! ### Operations -/

variable {ω : Type} {store : Store} {parent : Parent ω} {live : Live ω} {reg : Registry}

/-- What a callback fails over is what its execution fails over. -/
theorem Callback.failsOver_iff {cb : Callback} {failure : Failure} :
    Controller.FailsOver store parent cb.request live failure ↔
      ((cb.execution : Execution ω Outcome).run ⟨store, parent, live.cache⟩
        ⟨live.context, live.world, live.log⟩).1 = .error failure := by
  have hexecuted : (Controller.execute store parent cb.execution live).1 =
      ((cb.execution : Execution ω Outcome).run ⟨store, parent, live.cache⟩
        ⟨live.context, live.world, live.log⟩).1 := by
    rcases @Controller.execute_cases ω Outcome store parent cb.execution live with
      ⟨outcome, m', hrun, heq⟩ | ⟨failure, m', hrun, heq⟩
    · rw [hrun, heq]
    · rw [hrun, heq]
  have hresult := (cb.perform_request store parent live).2.2
  rw [hexecuted] at hresult
  have hreturned (hcb : ∀ failure, cb.refusal failure = .error failure) :
      (Controller.perform store parent cb.request live).1 = .error failure ↔
        ((cb.execution : Execution ω Outcome).run ⟨store, parent, live.cache⟩
          ⟨live.context, live.world, live.log⟩).1 = .error failure := by
    rw [hresult]
    split
    next outcome heq => rw [heq]; exact ⟨nofun, nofun⟩
    next failure' heq => rw [heq, hcb]; simp
  cases cb with
  | received packet => exact hexecuted ▸ Iff.rfl
  | answered packet answer => exact hreturned fun _ => rfl
  | expired packet => exact hreturned fun _ => rfl

/-- Over a grounded registry no callback fails over a version. -/
theorem Firm.spares (h : Firm (Overlay.mk store live.context.updates)) (cb : Callback)
    (fault : VersionError) :
    ¬ Controller.FailsOver store parent cb.request live (.badVersion fault) := by
  obtain ⟨reg, hreg, hgrounded, hshows⟩ := h
  rw [Callback.failsOver_iff, Callback.run_eq_badVersion_iff]
  rintro ⟨data, news, c, htells, hfound, htrusted, hmoves⟩
  obtain ⟨-, upgrade, hpending, hunnamed⟩ := News.transition_eq_badVersion_iff.1 hmoves
  obtain ⟨consumer, -, hconsumer, -⟩ := htrusted.leads
  have hc := hgrounded _ c (hshows.chainlet?_eq_some_iff.1 hfound)
  obtain ⟨plan, hplan⟩ := hc.exists_planName hreg.catalog (by rw [hconsumer]; nofun) hpending
  rw [hplan] at hunnamed
  cases hunnamed

namespace Controller

/-- A callback keeps a registry grounded. -/
theorem perform_callback_grounded (cb : Callback) (hreg : reg.Filed) (hgrounded : reg.Grounded)
    (store : Store) (parent : Parent ω) (live : Live ω)
    (hshows : reg.ShownBy (Overlay.mk store live.context.updates)) :
    ∃ reg' : Registry, reg'.Grounded ∧ reg'.ShownBy
      (Overlay.mk store (perform store parent cb.request live).2.context.updates) := by
  rcases cb.perform_cases store parent live with
    ⟨failure, -, hcontext⟩ | ⟨data, news, c, t, hreaches, -, hfits, hupdates⟩
  · exact ⟨reg, hgrounded, by rwa [hcontext]⟩
  · have hc := hshows.chainlet?_eq_some_iff.1 hreaches.found
    have hheld : reg.chainlets.get? c.chainId = some c := by rw [hreg.chainlets _ _ hc, hc]
    refine ⟨_, hgrounded.putChainlet (hreaches.grounded (hgrounded _ _ hc)), ?_⟩
    rw [hupdates]
    exact hshows.written hheld hfits

/-- **An operation keeps a registry grounded**, unless it imports a genesis state. -/
theorem perform_firm {request : Request} (himport : request.isImport = false)
    (hacted : ∀ {reg : Registry}, reg.Filed →
      reg.ShownBy (Overlay.mk store live.context.updates) → Acted reg store live
        (perform store parent request live).2 (FailsOver store parent request live))
    (h : Firm (Overlay.mk store live.context.updates)) :
    Firm (Overlay.mk store (perform store parent request live).2.context.updates) := by
  obtain ⟨reg, hreg, hgrounded, hshows⟩ := h
  obtain ⟨events, reg', hacts, -, hshows'⟩ := (hacted hreg hshows).acts
  refine ⟨reg', hacts.filed hreg, ?_, hshows'⟩
  -- Acts alone do not tell over which channel an upgrade was completed: callbacks go another way.
  rcases isMove_or_callback himport with hmove | ⟨cb, rfl⟩
  · obtain ⟨reg'', hkeeps, hshows''⟩ := perform_ensures hmove (.refl reg)
      (fun msg _ _ => Operation.ofMessage_keepsPending hreg msg)
      (fun chainId status _ => Operation.setStatus_keepsPending hreg chainId status)
      (fun _ => Operation.beginBlock_keepsPending hreg) store parent live hshows
    obtain rfl := hshows'.unique hshows''
    exact hgrounded.of_acts hacts hkeeps
  · obtain ⟨reg'', hgrounded', hshows''⟩ :=
      perform_callback_grounded cb hreg hgrounded store parent live hshows
    obtain rfl := hshows'.unique hshows''
    exact hgrounded'

end Controller

/-! ### Nodes -/

/-- The target of every pending upgrade is a version of the stack of the chainlet, or is out of
reach for callbacks. -/
def Genesis.Anchored (genesis : Genesis) : Prop :=
  ∀ c ∈ genesis.chainlets, ∀ upgrade, c.upgrade? = some upgrade →
    (∃ stack ∈ genesis.catalog, stack.name = c.stack ∧
      (stack.version? upgrade.targetVersion).isSome = true) ∨ c.OutOfReach upgrade

theorem Genesis.Checked.registers_iff {genesis : Genesis} (h : genesis.Checked)
    {name version : String} : Catalog.Registers genesis.registry.catalog name version ↔
      ∃ stack ∈ genesis.catalog, stack.name = name ∧ (stack.version? version).isSome = true := by
  constructor
  · rintro ⟨stack, hget, hversion⟩
    obtain ⟨hstack, hname⟩ := (OrderedMap.get?_fileBy_eq_some_iff h.names).1 hget
    exact ⟨stack, hstack, hname, hversion⟩
  · rintro ⟨stack, hstack, hname, hversion⟩
    exact h.registers hstack hname hversion

theorem Genesis.WellFormed.anchored {genesis : Genesis} (h : genesis.WellFormed) :
    genesis.Anchored :=
  fun c hc upgrade hpending => .inl (h.upgrade c hc upgrade hpending).2.1

/-- The registry of a genesis state that passes its check is grounded if every pending upgrade has
its target, or cannot be reached. -/
theorem Genesis.Anchored.grounded {genesis : Genesis} (h : genesis.Anchored)
    (hchecked : genesis.Checked) : genesis.registry.Grounded := by
  intro chainId c hget
  obtain ⟨hc, -⟩ := (OrderedMap.get?_fileBy_eq_some_iff hchecked.chainIds).1 hget
  exact ⟨hchecked.runs hc, fun upgrade hpending =>
    (h c hc upgrade hpending).imp_left hchecked.registers_iff.2⟩

namespace Node

/-- Every chainlet runs a version that its stack has, in what is committed and in what the open
context sees; and no callback in the open context fails over a version. -/
structure Safe (ω : Type) (n : Node) : Prop where
  committed : Backed n.store
  staged : ∀ context, n.context? = some context → Backed (Overlay.mk n.store context.updates)
  callbacks : ∀ context, n.context? = some context →
    ∀ (parent : Parent ω) (world : ω) (log : List LogEntry) (cb : Callback) (fault : VersionError),
      ¬ Controller.FailsOver n.store parent cb.request ⟨context, n.cache, world, log⟩
        (.badVersion fault)

/-- The committed registry is grounded, and so is the one that the open context sees. -/
structure Braced (n : Node) : Prop where
  steady : n.Steady
  committed : Firm n.store
  staged : ∀ context, n.context? = some context → Firm (Overlay.mk n.store context.updates)

theorem Braced.safe {n : Node} (h : n.Braced) : n.Safe ω where
  committed := h.committed.backed
  staged context hcontext := (h.staged context hcontext).backed
  callbacks context hcontext _ _ _ cb fault := Firm.spares (h.staged context hcontext) cb fault

/-- **Every action that imports nothing keeps a node braced.** -/
theorem Braced.step {n : Node} (h : n.Braced) {action : Action ω}
    (himport : action.isImport = false) : (n.step action).Braced := by
  have hsteady := h.steady.step action
  have hacted {context : Context} := @Steady.acted ω n h.steady context
  obtain ⟨store, cache, context?⟩ := n
  cases action with
  | openContext height time =>
    cases context? with
    | some context => exact h
    | none =>
      refine ⟨hsteady, h.committed, ?_⟩
      rintro _ ⟨⟩
      exact h.committed.opened
  | perform parent world request =>
    cases context? with
    | none => exact h
    | some context =>
      refine ⟨hsteady, h.committed, ?_⟩
      rintro _ ⟨⟩
      refine Controller.perform_firm himport (fun hreg hshows => ?_) (h.staged context rfl)
      exact hacted rfl hreg hshows himport parent world
  | commit logsEvents listener =>
    cases context? with
    | none => exact h
    | some context => exact ⟨hsteady, (h.staged context rfl).write, nofun⟩
  | drop => exact ⟨hsteady, h.committed, nofun⟩
  | latestCompatible stack current => exact ⟨hsteady, h.committed, h.staged⟩
  | invalidate => exact ⟨hsteady, h.committed, h.staged⟩

theorem Braced.run {n : Node} (h : n.Braced) {actions : List (Action ω)}
    (himport : ∀ action ∈ actions, action.isImport = false) : (n.run actions).Braced :=
  run_induction (P := Braced) (fun _ _ hallowed h => h.step hallowed) himport h

variable {genesis : Genesis} (height : Height) (time : Time) (parent : Parent ω) (world : ω)

/-- A node is braced when it has imported a genesis state that is anchored, or that it could not
store. -/
theorem braced_begin (hcheck : genesis.check = .ok ())
    (hanchored : genesis.Storable → genesis.Anchored) :
    (start.run (begin genesis height time parent world)).Braced := by
  let live : Live ω := ⟨.fresh height time, .unloaded, world, []⟩
  have himported : Firm (Overlay.mk ∅
      (Controller.perform ∅ parent (.importGenesis genesis) live).2.context.updates) := by
    by_cases hstorable : genesis.Storable
    · have hchecked := Genesis.check_ok hcheck
      exact ⟨_, hchecked.filed, (hanchored hstorable).grounded hchecked,
        (Controller.perform_import_of_storable hcheck hstorable Registry.ShownBy.empty.opened).2⟩
    · rw [(Controller.perform_import_of_not_storable hcheck hstorable).2]
      exact Firm.empty.opened
  refine ⟨steady_start.run _, .empty, ?_⟩
  rintro _ ⟨⟩
  exact himported

/-! ### What goes wrong otherwise -/

/-- A parent chain that answers as another one, except that every channel is open and leads to
everyone. -/
def opening (parent : Parent ω) : Parent ω where
  __ := parent
  consumerClient? _ _ := some ""
  routes _ := ⟨fun _ _ => some ⟨.isOpen, [""]⟩, fun _ => some "", fun _ => none⟩

theorem trustedOver_opening {c : Chainlet} {upgrade : PendingUpgrade}
    (hconsumer : c.consumer? ≠ none) (hpending : c.upgrade? = some upgrade) :
    c.TrustedOver (opening parent) world Channel.port upgrade.channel where
  leads := by
    obtain ⟨consumer, hconsumer⟩ := Option.ne_none_iff_exists'.1 hconsumer
    exact ⟨consumer, "", hconsumer, rfl, rfl, .isOpen, "", rfl, rfl⟩
  recorded other hother := by rw [Option.some.inj (hpending.symm.trans hother)]

/-- The timeout of the packet that schedules an upgrade. -/
def timeout (chainId channel : String) : Callback :=
  .expired ⟨⟨1⟩, Channel.port, channel, Channel.port, channel,
    PacketData.encode (.create chainId "" 0 ""), ⟨0⟩, ⟨0⟩⟩

/-- A confirmation that leaves the plan name out. -/
def assent (chainId channel : String) : Callback :=
  .received ⟨⟨1⟩, Channel.port, channel, Channel.port, channel,
    PacketData.encode (.confirm chainId 0 ""), ⟨0⟩, ⟨0⟩⟩

/-- The timeout of the packet that schedules an upgrade stumbles over a target that is no
version. -/
theorem stumbles_timeout {o : Overlay} {c : Chainlet} {upgrade : PendingUpgrade}
    (hfound : Readable.chainlet? o c.chainId = .ok (some c)) (hconsumer : c.consumer? ≠ none)
    (hpending : c.upgrade? = some upgrade)
    (htarget : ¬ ∃ p, Version.parse upgrade.targetVersion = .ok p) :
    ∃ fault, (timeout c.chainId upgrade.channel).Stumbles (opening parent) world o
      (.create c.chainId "" 0 "") .createExpired c fault := by
  cases hplan : Upgrade.planName c.version upgrade.targetVersion with
  | ok plan =>
    obtain ⟨_, _, -, ⟨p, hp, -⟩, -⟩ := Upgrade.planName_eq_ok_iff.1 hplan
    exact absurd ⟨p, hp⟩ htarget
  | error fault =>
    exact ⟨fault, .createExpired (PacketData.decode_encode _), hfound,
      trustedOver_opening parent world hconsumer hpending,
      News.transition_eq_badVersion_iff.2 ⟨nofun, upgrade, hpending, hplan⟩⟩

/-- A confirmation that leaves the plan name out completes a pending upgrade, whatever its
target. -/
theorem reaches_assent {o : Overlay} {c : Chainlet} {upgrade : PendingUpgrade}
    (hfound : Readable.chainlet? o c.chainId = .ok (some c)) (hconsumer : c.consumer? ≠ none)
    (hpending : c.upgrade? = some upgrade) (hvalid : ChainId.isValid c.chainId = true)
    (hchannel : Blank.isBlankText upgrade.channel = false) :
    (assent c.chainId upgrade.channel).Reaches (opening parent) world o (.confirm c.chainId 0 "")
      .confirmed c (.complete upgrade) where
  tells := .confirmed (PacketData.decode_encode _)
    (Confirmation.check_eq_ok_iff.2 ⟨hvalid, hchannel⟩)
  found := hfound
  trusted := trustedOver_opening parent world hconsumer hpending
  moves := by
    rw [hpending]
    exact News.transition_of_names (.inr ⟨rfl, rfl⟩)

/-- On a safe node the target of every pending upgrade of a consumer is a version. -/
theorem Safe.parses {n : Node} (h : n.Safe ω) {context : Context}
    (hcontext : n.context? = some context) {c : Chainlet} {upgrade : PendingUpgrade}
    (hfound : Readable.chainlet? (Overlay.mk n.store context.updates) c.chainId = .ok (some c))
    (hconsumer : c.consumer? ≠ none) (hpending : c.upgrade? = some upgrade) (parent : Parent ω)
    (world : ω) : ∃ p, Version.parse upgrade.targetVersion = .ok p := by
  by_contra htarget
  obtain ⟨fault, hstumbles⟩ :=
    stumbles_timeout parent world hfound hconsumer hpending htarget
  refine h.callbacks context hcontext (opening parent) world [] (timeout c.chainId upgrade.channel)
    fault (Callback.failsOver_iff.2 (Callback.run_eq_badVersion_iff.2 ?_))
  exact ⟨_, _, c, hstumbles⟩

/-- If a node is safe after a callback that completes an upgrade, the target was there. -/
theorem Safe.registers {n : Node} {context : Context} (hcontext : n.context? = some context)
    {reg : Registry} (hshows : reg.ShownBy (Overlay.mk n.store context.updates)) {cb : Callback}
    {parent : Parent ω} {world : ω} {data : PacketData} {news : News} {c : Chainlet}
    {upgrade : PendingUpgrade} (hget : reg.chainlets.get? c.chainId = some c)
    (hreaches : cb.Reaches parent world (Overlay.mk n.store context.updates) data news c
      (.complete upgrade)) (h : (n.step (.perform parent world cb.request)).Safe ω) :
    Catalog.Registers reg.catalog c.stack upgrade.targetVersion := by
  let live : Live ω := ⟨context, n.cache, world, []⟩
  let c' : Chainlet := Transition.apply (.complete upgrade) c
  have hfits : Stored.fits c' = true :=
    Operation.fits_apply (hshows.chainlets.fits hget) hreaches.moves
  obtain ⟨after, hafter⟩ : ∃ after, after = (Controller.perform n.store parent cb.request live).2 :=
    ⟨_, rfl⟩
  have hupdates : after.context.updates =
      Operation.written c (.complete upgrade) context.updates := by
    rw [hafter]
    exact (@Callback.perform_of_reaches ω cb n.store parent live _ _ _ _ hreaches hfits).2
  have hshows' : (reg.putChainlet c').ShownBy (Overlay.mk n.store after.context.updates) := by
    rw [hupdates]
    exact hshows.written hget (.inr hfits)
  rw [step_perform hcontext] at h
  dsimp only at h
  rw [← hafter] at h
  have hfound : Readable.chainlet? (Overlay.mk n.store after.context.updates) c'.chainId =
      .ok (some c') := hshows'.chainlet?_eq_some_iff.2 (OrderedMap.get?_insert_self ..)
  have hregisters : Catalog.Registers (reg.putChainlet c').catalog c'.stack c'.version :=
    hshows'.registers_iff.2 (h.staged after.context rfl c'.chainId c' hfound)
  exact hregisters

/-- A genesis state that can be stored is anchored if every run from it is safe. -/
theorem anchored_of_safe (hcheck : genesis.check = .ok ()) (hstorable : genesis.Storable)
    (hsafe : ∀ actions : List (Action ω), (∀ action ∈ actions, action.isImport = false) →
      ((start.run (begin genesis height time parent world)).run actions).Safe ω) :
    genesis.Anchored := by
  intro c hc upgrade hpending
  by_contra hneither
  obtain ⟨hmissing, hreach⟩ := not_or.1 hneither
  obtain ⟨hconsumer, hreach⟩ := not_or.1 hreach
  have hchecked := Genesis.check_ok hcheck
  have hget : genesis.registry.chainlets.get? c.chainId = some c :=
    (OrderedMap.get?_fileBy_eq_some_iff hchecked.chainIds).2 ⟨hc, rfl⟩
  -- From here on only what the node shows matters, not how it came about.
  obtain ⟨n, hn⟩ : ∃ n, start.run (begin genesis height time parent world) = n := ⟨_, rfl⟩
  rw [hn] at hsafe
  obtain ⟨context, hcontext, hshows⟩ : ∃ context, n.context? = some context ∧
      genesis.registry.ShownBy (Overlay.mk n.store context.updates) := by
    rw [← hn]
    exact ⟨_, rfl, (Controller.perform_import_of_storable hcheck hstorable
      Registry.ShownBy.empty.opened).2⟩
  have hparses := (hsafe [] nofun).parses hcontext (hshows.chainlet?_eq_some_iff.2 hget) hconsumer
    hpending parent world
  have hchannel : Blank.isBlankText upgrade.channel = false :=
    Bool.eq_false_iff.2 fun hblank => hreach ⟨hparses, hblank⟩
  have hreaches := reaches_assent parent world (hshows.chainlet?_eq_some_iff.2 hget) hconsumer
    hpending (hchecked.chainlets c hc).1 hchannel
  refine hmissing (hchecked.registers_iff.1 (Safe.registers hcontext hshows hget hreaches
    (hsafe [.perform (opening parent) world (assent c.chainId upgrade.channel).request] ?_)))
  simp [assent, Callback.request, Action.isImport, Request.isImport]

/-- **Which genesis states are safe to run.** All runs from a genesis state that passes its check
are safe, whatever the host does short of another import and whatever the parent chain answers,
exactly if the target of every pending upgrade is a version of the stack of the chainlet, or is out
of reach for callbacks. A genesis state that cannot be stored is not imported, and leaves nothing to
run. -/
theorem safe_run_iff (hcheck : genesis.check = .ok ()) :
    (∀ actions : List (Action ω), (∀ action ∈ actions, action.isImport = false) →
      ((start.run (begin genesis height time parent world)).run actions).Safe ω) ↔
        (genesis.Storable → genesis.Anchored) :=
  ⟨fun hsafe hstorable => anchored_of_safe height time parent world hcheck hstorable hsafe,
    fun hanchored _ himport =>
      ((braced_begin height time parent world hcheck hanchored).run himport).safe⟩

/-- A genesis state with a consumer that has an upgrade pending to what is no version. -/
def mistaken : Genesis :=
  { upgrading with
    chainlets := [{ waiting with upgrade? := some ⟨"two", ⟨10⟩, "channel-0"⟩ }] }

theorem storable_mistaken : mistaken.Storable where
  catalog := storable_upgrading.catalog
  chainlets c hc := by
    rw [List.mem_singleton.1 hc]
    decide +kernel

theorem not_anchored_mistaken : ¬ mistaken.Anchored := by
  intro hanchored
  rcases hanchored _ (List.mem_singleton_self _) _ rfl with ⟨stack, hstack, -, hversion⟩ | hreach
  · rw [List.mem_singleton.1 hstack] at hversion
    exact absurd hversion (by decide +kernel)
  · rcases hreach with hunlent | ⟨⟨p, hp⟩, -⟩
    · cases hunlent
    · have hnone : (Version.parse "two").toOption = none := by decide +kernel
      rw [hp] at hnone
      cases hnone

/-- One genesis state that is safe to run, and one that is not, though both pass the check. -/
theorem safe_run_upgrading :
    upgrading.check = .ok () ∧ mistaken.check = .ok () ∧
      (∀ actions : List (Action Host.World), (∀ action ∈ actions, action.isImport = false) →
        ((start.run (begin upgrading ⟨1⟩ ⟨0⟩ (Host.World.parent true) tracked)).run actions).Safe
          Host.World) ∧
      ¬ ∀ actions : List (Action Host.World), (∀ action ∈ actions, action.isImport = false) →
        ((start.run (begin mistaken ⟨1⟩ ⟨0⟩ (Host.World.parent true) tracked)).run actions).Safe
          Host.World := by
  refine ⟨rfl, rfl, ?_, fun hsafe => ?_⟩
  · exact (safe_run_iff ⟨1⟩ ⟨0⟩ (Host.World.parent true) tracked rfl).2 fun _ =>
      wellFormed_upgrading.anchored
  · exact not_anchored_mistaken ((safe_run_iff ⟨1⟩ ⟨0⟩ (Host.World.parent true) tracked rfl).1 hsafe
      storable_mistaken)

/-- The chainlet confirms and leaves the plan name out, and that is committed. -/
def assented : List (Action Host.World) :=
  [.perform (Host.World.parent true) tracked (assent "alpha_1-1" "channel-0").request,
    .commit true .listening]

/-- What the chainlet runs then. -/
theorem chainlet_assented :
    Readable.chainlet? ((start.run (begin mistaken ⟨1⟩ ⟨0⟩ (Host.World.parent true) tracked)).run
      assented).store "alpha_1-1" =
        .ok (some { waiting with version := "two", upgrade? := none }) := by
  decide +kernel

/-- A genesis state that passes its check is not always safe to run. -/
theorem not_always_safe :
    ¬ ∀ (genesis : Genesis) (height : Height) (time : Time) (parent : Parent Host.World)
      (world : Host.World) (actions : List (Action Host.World)), genesis.check = .ok () →
      (∀ action ∈ actions, action.isImport = false) →
        ((start.run (begin genesis height time parent world)).run actions).Safe Host.World := by
  intro hall
  have hsafe := hall mistaken ⟨1⟩ ⟨0⟩ (Host.World.parent true) tracked assented rfl
    (by simp [assented, assent, Callback.request, Action.isImport, Request.isImport])
  obtain ⟨stack, hstack, hversion⟩ := hsafe.committed "alpha_1-1" _ chainlet_assented
  have hread : (Readable.stack? ((start.run (begin mistaken ⟨1⟩ ⟨0⟩ (Host.World.parent true)
      tracked)).run assented).store "alpha").toOption.map (·.map (·.version? "two")) =
        some (some none) := by
    decide +kernel
  change Readable.stack? _ "alpha" = _ at hstack
  rw [hstack] at hread
  have hnone : stack.version? "two" = none := Option.some.inj (Option.some.inj hread)
  change (stack.version? "two").isSome = true at hversion
  rw [hnone] at hversion
  cases hversion

end Node

end Chainlets
