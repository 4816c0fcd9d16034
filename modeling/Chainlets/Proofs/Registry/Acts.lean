import Chainlets.Event
import Chainlets.Proofs.Registry.Callbacks
import Chainlets.Proofs.Registry.Operations
import Chainlets.Proofs.VersionTree.Offered

/-!
# Acts

What an operation does to the registry is told by the events that it leaves: each of them is a word
for something that was done, and nothing is done without a word. An *act* is the least that is done
at once, with its events in order. It is what indexers see of the module, so its guards say all that
the module promises about the record before: a version that is launched or upgraded to is enabled,
an upgrade that is settled was pending, a consumer that is initialized was waiting. An operation
makes any number of acts.

Acts are finer than moves. They are told apart where moves are not, and they include what callbacks
do. They need no well-formed registry, only one in which everything is stored under its own name.

## Main definitions

* `Registry.Act`, `Registry.Acts` — one act, and any number of them, with their events.

## Main results

* `Registry.Acts.filed`, `Registry.Acts.wellFormed` — **what acts keep.**
* `Registry.acts_empty_iff` — nothing can be done before there is a genesis state.
* `Registry.Acts.pends` — what is pending was pending before, at the same version, or was scheduled.
-/

namespace Chainlets

theorem Catalog.Enables.registers {catalog : Catalog} {stack version : String}
    (h : Catalog.Enables catalog stack version) : Catalog.Registers catalog stack version := by
  obtain ⟨found, v, hfound, hv⟩ := h
  exact .of_enabled? hfound hv

/-- The chainlet as a consumer, if it joins as one. -/
def Chainlet.join? (c : Chainlet) : Option ConsumerId → Chainlet
  | none => c
  | some consumer => c.join consumer

@[simp]
theorem Chainlet.chainId_join? (c : Chainlet) (consumer? : Option ConsumerId) :
    (c.join? consumer?).chainId = c.chainId := by cases consumer? <;> rfl

@[simp]
theorem Chainlet.stack_join? (c : Chainlet) (consumer? : Option ConsumerId) :
    (c.join? consumer?).stack = c.stack := by cases consumer? <;> rfl

@[simp]
theorem Chainlet.version_join? (c : Chainlet) (consumer? : Option ConsumerId) :
    (c.join? consumer?).version = c.version := by cases consumer? <;> rfl

@[simp]
theorem Chainlet.status_join? (c : Chainlet) (consumer? : Option ConsumerId) :
    (c.join? consumer?).status = c.status := by cases consumer? <;> rfl

@[simp]
theorem Chainlet.upgrade?_join? (c : Chainlet) (consumer? : Option ConsumerId) :
    (c.join? consumer?).upgrade? = c.upgrade? := by cases consumer? <;> rfl

/-- The events of a chainlet that joins as a consumer, if it does. -/
def Event.joining (chainId : String) : Option ConsumerId → List Event
  | none => []
  | some consumer => [.registerConsumer chainId consumer]

/-- The event of a chainlet that goes online or offline. -/
def Event.ofStatus (chainId : String) : Status → Event
  | .online => .startChainlet chainId
  | .offline => .stopChainlet chainId

namespace Registry

/-- What is done at once, with the events that tell it. -/
inductive Act (reg : Registry) : List Event → Registry → Prop
  /-- A stack is created with one version. -/
  | create {stack : Stack} {v : StackVersion} {params : Params} (creator : String)
      (given : reg.params? = some params) (free : reg.catalog.get? stack.name = none)
      (single : stack.versions = [v]) (enabled : v.enabled = true)
      (parses : ∃ p, Version.parse v.version = .ok p) :
      Act reg [.createStack stack.name creator,
        .addStackVersion stack.name v.version v.isConsumer] (reg.putStack stack)
  /-- A stack gets another version. -/
  | extend {stack : Stack} {v : StackVersion} (held : reg.catalog.get? stack.name = some stack)
      (enabled : v.enabled = true) (parses : ∃ p, Version.parse v.version = .ok p)
      (apart : ∀ w ∈ stack.versions, ¬ w.CollidesWith v) :
      Act reg [.addStackVersion stack.name v.version v.isConsumer]
        (reg.putStack (stack.addVersion v))
  /-- A version of a stack that was enabled is disabled. -/
  | disable {stack : Stack} {version : String} {v : StackVersion}
      (held : reg.catalog.get? stack.name = some stack)
      (enabled : stack.enabled? version = some v) :
      Act reg [.disableStackVersion stack.name version] (reg.putStack (stack.disable version))
  /-- A chainlet is launched on an enabled version. -/
  | launch {c : Chainlet} {params : Params} (feeDenom? : Option String)
      (given : reg.params? = some params) (room : reg.count < params.maxChainlets)
      (free : reg.chainlets.get? c.chainId = none) (sound : c.Sound reg.catalog)
      (enabled : Catalog.Enables reg.catalog c.stack c.version) (online : c.status = .online)
      (idle : c.upgrade? = none) :
      Act reg (Event.joining c.chainId c.consumer? ++
          [.launchChainlet c.chainId c.stack c.version c.launcher feeDenom?])
        (((reg.await? c.chainId c.consumer?).putChainlet c).withCount (reg.count + 1))
  /-- A chainlet goes online or offline. -/
  | status {c : Chainlet} {status : Status} (held : reg.chainlets.get? c.chainId = some c)
      (changes : c.status ≠ status) :
      Act reg [Event.ofStatus c.chainId status] (reg.putChainlet { c with status })
  /-- A chainlet is moved to another enabled version of its series, and joins if it has to. -/
  | upgrade {c : Chainlet} {version : String} {consumer? : Option ConsumerId} (automatic : Bool)
      (held : reg.chainlets.get? c.chainId = some c) (idle : c.upgrade? = none)
      (alone : consumer?.isSome = true → c.isConsumer = false)
      (enabled : Catalog.Enables reg.catalog c.stack version) (other : version ≠ c.version)
      (compatible : Upgrade.kind c.version version = .ok .compatible) :
      Act reg (Event.joining c.chainId consumer? ++
          [.upgradeChainlet c.chainId c.version version automatic])
        ((reg.await? c.chainId consumer?).putChainlet { c.join? consumer? with version })
  /-- A chainlet is asked to take part in a breaking upgrade to an enabled version, and joins if it
  has to. -/
  | schedule {c : Chainlet} {upgrade : PendingUpgrade} {plan : String}
      {consumer? : Option ConsumerId} (sequence : Sequence) (commitment : Commitment)
      (held : reg.chainlets.get? c.chainId = some c) (idle : c.upgrade? = none)
      (alone : consumer?.isSome = true → c.isConsumer = false)
      (consumer : (c.join? consumer?).isConsumer = true)
      (enabled : Catalog.Enables reg.catalog c.stack upgrade.targetVersion)
      (breaking : Upgrade.kind c.version upgrade.targetVersion = .ok .breaking)
      (named : Upgrade.planName c.version upgrade.targetVersion = .ok plan) :
      Act reg (Event.joining c.chainId consumer? ++
          [.scheduleUpgrade c.chainId plan upgrade.targetVersion upgrade.targetHeight
            upgrade.channel sequence commitment])
        ((reg.await? c.chainId consumer?).putChainlet
          { c.join? consumer? with upgrade? := some upgrade })
  /-- A chainlet is asked to give its pending upgrade up. -/
  | requestCancel {c : Chainlet} {upgrade : PendingUpgrade} {plan : String} (sequence : Sequence)
      (commitment : Commitment) (held : reg.chainlets.get? c.chainId = some c)
      (pending : c.upgrade? = some upgrade)
      (named : Upgrade.planName c.version upgrade.targetVersion = .ok plan) :
      Act reg [.requestCancelUpgrade c.chainId plan upgrade.channel sequence commitment] reg
  /-- A callback that is not about the pending upgrade of a chainlet is ignored. -/
  | ignore {c : Chainlet} (plan : String) (reason : IgnoreReason)
      (held : reg.chainlets.get? c.chainId = some c) :
      Act reg [.ignorePacket c.chainId plan reason] reg
  /-- The pending upgrade of a chainlet is given up. -/
  | giveUp {c : Chainlet} {upgrade : PendingUpgrade} (reason : CancelReason)
      (held : reg.chainlets.get? c.chainId = some c) (pending : c.upgrade? = some upgrade) :
      Act reg [.cancelUpgrade c.chainId upgrade.targetVersion reason]
        (reg.putChainlet { c with upgrade? := none })
  /-- The pending upgrade of a chainlet is completed. -/
  | complete {c : Chainlet} {upgrade : PendingUpgrade} (height : Height)
      (held : reg.chainlets.get? c.chainId = some c) (pending : c.upgrade? = some upgrade) :
      Act reg [.completeUpgrade c.chainId upgrade.targetVersion height]
        (reg.putChainlet { c with version := upgrade.targetVersion, upgrade? := none })
  /-- A consumer that waited is initialized. -/
  | init {chainId : String} {consumer : ConsumerId} (channel : String)
      (waits : reg.waiting.get? chainId = some consumer) :
      Act reg [.initConsumer chainId consumer channel] (reg.init chainId)

/-- What is done in any number of acts, with the events that tell it. -/
inductive Acts (reg : Registry) : List Event → Registry → Prop
  | refl : Acts reg [] reg
  | tail {reg₁ reg₂ : Registry} {events more : List Event} (acts : Acts reg events reg₁)
      (act : reg₁.Act more reg₂) : Acts reg (events ++ more) reg₂

variable {reg reg' reg'' : Registry} {events more : List Event}

theorem Act.acts (h : reg.Act events reg') : reg.Acts events reg' := Acts.refl.tail h

theorem Acts.trans (h : reg.Acts events reg') (h' : reg'.Acts more reg'') :
    reg.Acts (events ++ more) reg'' := by
  induction h' with
  | refl => rwa [List.append_nil]
  | tail _ act ih =>
    rw [← List.append_assoc]
    exact ih.tail act

/-! ### What acts leave alone -/

@[simp]
theorem catalog_await? (reg : Registry) (chainId : String) (consumer? : Option ConsumerId) :
    (reg.await? chainId consumer?).catalog = reg.catalog := by cases consumer? <;> rfl

@[simp]
theorem chainlets_await? (reg : Registry) (chainId : String) (consumer? : Option ConsumerId) :
    (reg.await? chainId consumer?).chainlets = reg.chainlets := by cases consumer? <;> rfl

@[simp]
theorem count_await? (reg : Registry) (chainId : String) (consumer? : Option ConsumerId) :
    (reg.await? chainId consumer?).count = reg.count := by cases consumer? <;> rfl

@[simp]
theorem params?_await? (reg : Registry) (chainId : String) (consumer? : Option ConsumerId) :
    (reg.await? chainId consumer?).params? = reg.params? := by cases consumer? <;> rfl

/-- No act changes the parameters. -/
theorem Act.params?_eq (h : reg.Act events reg') : reg'.params? = reg.params? := by
  cases h with
  | launch => exact params?_await? ..
  | upgrade => exact params?_await? ..
  | schedule => exact params?_await? ..
  | _ => rfl

theorem Acts.params?_eq (h : reg.Acts events reg') : reg'.params? = reg.params? := by
  induction h with
  | refl => rfl
  | tail _ act ih => exact act.params?_eq.trans ih

/-- Every act finds something that a genesis state has put there. -/
theorem not_act_empty : ¬ Registry.empty.Act events reg' := by
  intro h
  cases h <;> contradiction

/-- **Nothing can be done before there is a genesis state.** -/
theorem acts_empty_iff : Registry.empty.Acts events reg' ↔ events = [] ∧ reg' = Registry.empty := by
  constructor
  · intro h
    induction h with
    | refl => exact ⟨rfl, rfl⟩
    | tail _ act ih =>
      obtain ⟨-, rfl⟩ := ih
      exact absurd act not_act_empty
  · rintro ⟨rfl, rfl⟩
    exact .refl

/-! ### What acts keep -/

/-- A chainlet that joins, if it does, is as it has to be before its record is written. -/
theorem joined_join? {c : Chainlet} {consumer? : Option ConsumerId}
    (alone : consumer?.isSome = true → c.isConsumer = false) :
    reg.Joined c (c.join? consumer?) (reg.await? c.chainId consumer?) := by
  cases consumer? with
  | none => exact .same
  | some consumer => exact .joined consumer (alone rfl)

/-- Acts on the stacks and on a chainlet that nobody has asked yet are moves, and those of callbacks
settle an upgrade. -/
theorem Act.wellFormed (h : reg.Act events reg') (hreg : reg.WellFormed) : reg'.WellFormed := by
  have hsound {c : Chainlet} (held : reg.chainlets.get? c.chainId = some c) : c.Sound reg.catalog :=
    (hreg.chainlets _ _ held).2
  have hjoined {c : Chainlet} {consumer? : Option ConsumerId}
      (alone : consumer?.isSome = true → c.isConsumer = false) :
      reg.Joined c (c.join? consumer?) (reg.await? c.chainId consumer?) := joined_join? alone
  cases h with
  | create creator given free single enabled parses =>
    obtain ⟨p, hp⟩ := parses
    exact (Move.create free (Operation.wellFormed_of_single single hp)).wellFormed hreg
  | extend held enabled parses apart => exact (Move.extend held parses apart).wellFormed hreg
  | disable held enabled => exact (Move.disable _ held).wellFormed hreg
  | launch feeDenom? given room free sound enabled online idle =>
    exact (Move.launch given room free sound).wellFormed hreg
  | @status c status held changes => exact (Move.turn held (.status status)).wellFormed hreg
  | upgrade automatic held idle alone enabled other compatible =>
    refine ((hjoined alone).moves held ?_).wellFormed hreg
    exact .upgrade (by simpa using idle) (by simpa using enabled.registers)
      (by simpa using compatible)
  | schedule sequence commitment held idle alone consumer enabled breaking named =>
    refine ((hjoined alone).moves held ?_).wellFormed hreg
    exact .schedule (by simpa using idle) consumer (by simpa using enabled.registers)
      (by simpa using breaking)
  | requestCancel => exact hreg
  | ignore => exact hreg
  | giveUp reason held pending =>
    refine hreg.putChainlet held rfl ?_
    exact ⟨(hsound held).valid, (hsound held).registered, (hsound held).consumer, nofun⟩
  | complete height held pending =>
    refine hreg.putChainlet held rfl ?_
    exact ⟨(hsound held).valid, ((hsound held).upgrade _ pending).2.1, (hsound held).consumer,
      nofun⟩
  | init channel waits => exact hreg.init _

/-- **Acts keep a registry well-formed.** -/
theorem Acts.wellFormed (h : reg.Acts events reg') (hreg : reg.WellFormed) : reg'.WellFormed := by
  induction h with
  | refl => exact hreg
  | tail _ act ih => exact act.wellFormed ih

theorem Filed.putStack (h : reg.Filed) {stack : Stack} (hstack : stack.WellFormed) :
    (reg.putStack stack).Filed where
  catalog := Catalog.WellFormed.insert h.catalog hstack
  chainlets := h.chainlets

theorem Filed.putChainlet (h : reg.Filed) (c : Chainlet) : (reg.putChainlet c).Filed where
  catalog := h.catalog
  chainlets chainId d hd := by
    rcases OrderedMap.get?_insert_cases hd with ⟨rfl, rfl⟩ | hd
    · rfl
    · exact h.chainlets chainId d hd

theorem Filed.await? (h : reg.Filed) (chainId : String) (consumer? : Option ConsumerId) :
    (reg.await? chainId consumer?).Filed := by
  cases consumer? with
  | none => exact h
  | some consumer => exact ⟨h.catalog, h.chainlets⟩

theorem Act.filed (h : reg.Act events reg') (hreg : reg.Filed) : reg'.Filed := by
  cases h with
  | create creator given free single enabled parses =>
    obtain ⟨p, hp⟩ := parses
    exact hreg.putStack (Operation.wellFormed_of_single single hp)
  | extend held enabled parses apart =>
    exact hreg.putStack ((hreg.catalog held).2.addVersion parses apart)
  | disable held enabled => exact hreg.putStack ((hreg.catalog held).2.disable _)
  | @launch c =>
    have hput := (hreg.await? c.chainId c.consumer?).putChainlet c
    exact ⟨hput.catalog, hput.chainlets⟩
  | status => exact hreg.putChainlet _
  | upgrade => exact (hreg.await? _ _).putChainlet _
  | schedule => exact (hreg.await? _ _).putChainlet _
  | requestCancel => exact hreg
  | ignore => exact hreg
  | giveUp => exact hreg.putChainlet _
  | complete => exact hreg.putChainlet _
  | init => exact ⟨hreg.catalog, hreg.chainlets⟩

/-- **Acts keep everything stored under its own name.** -/
theorem Acts.filed (h : reg.Acts events reg') (hreg : reg.Filed) : reg'.Filed := by
  induction h with
  | refl => exact hreg
  | tail _ act ih => exact act.filed ih

/-! ### Pending upgrades -/

/-- An upgrade is pending on a chainlet, which runs a version meanwhile. -/
def Pends (reg : Registry) (chainId version : String) (upgrade : PendingUpgrade) : Prop :=
  ∃ c, reg.chainlets.get? chainId = some c ∧ c.version = version ∧ c.upgrade? = some upgrade

/-- An event that tells that an upgrade was scheduled. -/
def Schedules (events : List Event) (chainId : String) (upgrade : PendingUpgrade) : Prop :=
  ∃ plan sequence commitment, .scheduleUpgrade chainId plan upgrade.targetVersion
    upgrade.targetHeight upgrade.channel sequence commitment ∈ events

variable {chainId version : String} {upgrade : PendingUpgrade}

/-- What is pending once a record is written is pending on the record, or was pending before. -/
theorem Pends.of_putChainlet {c : Chainlet}
    (h : (reg.putChainlet c).Pends chainId version upgrade) :
    (chainId = c.chainId ∧ c.version = version ∧ c.upgrade? = some upgrade) ∨
      reg.Pends chainId version upgrade := by
  obtain ⟨found, hget, hversion, hpending⟩ := h
  rcases OrderedMap.get?_insert_cases hget with ⟨hid, rfl⟩ | hget
  · exact .inl ⟨hid, hversion, hpending⟩
  · exact .inr ⟨found, hget, hversion, hpending⟩

theorem pends_await?_iff {chainId' : String} {consumer? : Option ConsumerId} :
    (reg.await? chainId' consumer?).Pends chainId version upgrade ↔
      reg.Pends chainId version upgrade := by
  rw [Pends, chainlets_await?, Pends]

/-- An act leaves nothing pending that was not pending before, at the same version, unless its
events tell that it was scheduled. -/
theorem Act.pends (h : reg.Act events reg') (hpends : reg'.Pends chainId version upgrade) :
    reg.Pends chainId version upgrade ∨ Schedules events chainId upgrade := by
  cases h with
  | create => exact .inl hpends
  | extend => exact .inl hpends
  | disable => exact .inl hpends
  | launch feeDenom? given room free sound enabled online idle =>
    rcases Pends.of_putChainlet hpends with ⟨-, -, hpending⟩ | hpends
    · rw [idle] at hpending
      cases hpending
    · exact .inl (pends_await?_iff.1 hpends)
  | status held changes =>
    rcases hpends.of_putChainlet with ⟨rfl, hversion, hpending⟩ | hpends
    · exact .inl ⟨_, held, hversion, hpending⟩
    · exact .inl hpends
  | upgrade automatic held idle =>
    rcases hpends.of_putChainlet with ⟨-, -, hpending⟩ | hpends
    · rw [Chainlet.upgrade?_join?, idle] at hpending
      cases hpending
    · exact .inl (pends_await?_iff.1 hpends)
  | @schedule c upgrade plan consumer? sequence commitment =>
    rcases hpends.of_putChainlet with ⟨hid, -, hpending⟩ | hpends
    · obtain rfl := Option.some.inj hpending
      obtain rfl : _ = c.chainId := hid.trans (c.chainId_join? consumer?)
      refine .inr ⟨plan, sequence, commitment, List.mem_append_right _ ?_⟩
      exact List.mem_singleton_self _
    · exact .inl (pends_await?_iff.1 hpends)
  | requestCancel => exact .inl hpends
  | ignore => exact .inl hpends
  | giveUp =>
    rcases hpends.of_putChainlet with ⟨-, -, hpending⟩ | hpends
    · cases hpending
    · exact .inl hpends
  | complete =>
    rcases hpends.of_putChainlet with ⟨-, -, hpending⟩ | hpends
    · cases hpending
    · exact .inl hpends
  | init => exact .inl hpends

/-- **Nothing is pending that was not pending before, at the same version, or was scheduled.** -/
theorem Acts.pends (h : reg.Acts events reg') (hpends : reg'.Pends chainId version upgrade) :
    reg.Pends chainId version upgrade ∨ Schedules events chainId upgrade := by
  induction h with
  | refl => exact .inl hpends
  | tail _ act ih =>
    rcases act.pends hpends with hpends | ⟨plan, sequence, commitment, hmem⟩
    · rcases ih hpends with hpends | ⟨plan, sequence, commitment, hmem⟩
      · exact .inl hpends
      · exact .inr ⟨plan, sequence, commitment, List.mem_append_left _ hmem⟩
    · exact .inr ⟨plan, sequence, commitment, List.mem_append_right _ hmem⟩

end Registry

end Chainlets
