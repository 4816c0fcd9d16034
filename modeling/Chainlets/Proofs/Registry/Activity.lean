import Chainlets.Proofs.Registry.Acts
import Chainlets.Proofs.Registry.Does
import Chainlets.Proofs.Upgrade.News

/-!
# Operations act

Every operation that succeeds makes acts, and leaves the events of these acts in their order; and no
operation fails over a corruption. The registry has to have everything stored under its own name.

What is read of the waiting consumers is used while it is being changed. Each change touches one
chainlet, and each is made for another one.

## Main results

* `Message.harmless_check` — what is checked of a message fails for a reason of the message.
* `Operation.does_ofMessage`, `Operation.does_setStatus`, `Operation.does_callback` — **operations
  act.**
-/

namespace Chainlets

open Execution

/-! ### Checks -/

namespace Except.Harmless

variable {α β : Type}

theorem pure (a : α) : Harmless (Except.ok a) := nofun

theorem throw {failure : Failure} (h : failure.isCorruption = false) :
    Harmless (Except.error failure : Except Failure α) := by
  rintro _ ⟨⟩
  exact h

theorem bind {x : Except Failure α} {f : α → Except Failure β} (hx : Harmless x)
    (hf : ∀ a, Harmless (f a)) : Harmless (x >>= f) := by
  cases x with
  | error failure => exact throw (hx failure rfl)
  | ok a => exact hf a

theorem ite {c : Prop} [Decidable c] {x y : Except Failure α} (hx : Harmless x)
    (hy : Harmless y) : Harmless (if c then x else y) := by
  split
  · exact hx
  · exact hy

end Except.Harmless

theorem harmless_requireNonBlank (field value : String) :
    Except.Harmless (requireNonBlank field value) :=
  .ite (.throw rfl) (.pure ())

theorem harmless_requireChainId (id : String) : Except.Harmless (requireChainId id) :=
  .ite (.pure ()) (.throw rfl)

theorem harmless_requireVersion (text : String) : Except.Harmless (requireVersion text) := by
  rw [requireVersion.eq_def]
  split
  · exact .pure ()
  · exact .throw rfl

theorem harmless_requireDistinct (field : String) (duplicate : String → Invalid)
    (seen l : List String) : Except.Harmless (requireDistinct field duplicate seen l) := by
  induction l generalizing seen with
  | nil => exact .pure ()
  | cons text rest ih =>
    refine (harmless_requireNonBlank field text).bind fun _ => ?_
    exact .ite (.throw rfl) (ih _)

theorem harmless_requireFees (fees : List StackFees) : Except.Harmless (requireFees fees) :=
  .ite (.throw rfl) (harmless_requireDistinct _ _ _ _)

theorem harmless_requireMaintainers (maintainers : List String) :
    Except.Harmless (requireMaintainers maintainers) :=
  .ite (.throw rfl) (harmless_requireDistinct _ _ _ _)

/-- What is checked of a message fails for a reason of the message. -/
theorem Message.harmless_check (msg : Message) : Except.Harmless msg.check := by
  have hblank := harmless_requireNonBlank
  cases msg with
  | createStack msg =>
    refine (hblank _ _).bind fun _ => (hblank _ _).bind fun _ => ?_
    refine (hblank _ _).bind fun _ => (hblank _ _).bind fun _ => ?_
    exact (harmless_requireVersion _).bind fun _ => harmless_requireFees _
  | addVersion msg =>
    refine (hblank _ _).bind fun _ => (hblank _ _).bind fun _ => ?_
    refine (hblank _ _).bind fun _ => (hblank _ _).bind fun _ => ?_
    exact harmless_requireVersion _
  | disableVersion msg =>
    refine (hblank _ _).bind fun _ => (hblank _ _).bind fun _ => ?_
    exact harmless_requireVersion _
  | launch msg =>
    refine (hblank _ _).bind fun _ => (hblank _ _).bind fun _ => ?_
    refine (hblank _ _).bind fun _ => (harmless_requireVersion _).bind fun _ => ?_
    exact (harmless_requireChainId _).bind fun _ => harmless_requireMaintainers _
  | requestUpgrade msg =>
    refine (hblank _ _).bind fun _ => (harmless_requireChainId _).bind fun _ => ?_
    exact harmless_requireVersion _
  | cancelUpgrade msg =>
    exact (hblank _ _).bind fun _ => harmless_requireChainId _

theorem Confirmation.harmless_check (msg : Confirmation) : Except.Harmless msg.check :=
  (harmless_requireChainId _).bind fun _ => harmless_requireNonBlank _ _

variable {ω : Type} {reg reg' : Registry}

namespace Operation

/-! ### Stacks -/

/-- Stacks are managed only once there are parameters. -/
theorem learns_requireStackManager (address : String) :
    (requireStackManager address : Execution ω Unit).Learns reg fun _ =>
      ∃ params, reg.params? = some params := by
  refine learns_params.bind fun params hparams => (learns_ask _).bind fun allowed _ => ?_
  exact Does.ite (fun _ => .fail rfl) fun _ => Learns.pure ⟨params, hparams⟩

/-- What is left of an operation that has written a stack, and tells of it in the end. -/
theorem does_putStack {stack : Stack} {f : VersionTree → Except VersionError VersionTree}
    {events : List Event} {rest : Execution ω Unit} (hreg : (reg.putStack stack).Filed)
    (hrest : rest.Does (reg.putStack stack) fun _ more reg' =>
      more = events ∧ reg' = reg.putStack stack)
    (hact : reg.Act events (reg.putStack stack)) :
    (putStack stack >>= fun _ => changeTree f >>= fun _ => rest : Execution ω Unit).Does reg
      fun _ => reg.Acts := by
  refine (stores_putStack stack).bind fun _ => ?_
  refine (learns_changeTree hreg.catalog f).bind fun _ _ => hrest.mono ?_
  rintro _ _ _ ⟨rfl, rfl⟩
  exact hact.acts

theorem does_createStack (msg : CreateStack) (hreg : reg.Filed) :
    (createStack msg : Execution ω Unit).Does reg fun _ => reg.Acts := by
  refine (learns_requireStackManager _).bind fun _ ⟨params, hparams⟩ => ?_
  refine (learns_stack? msg.name).bind fun stack? hstack? => Does.guarded rfl fun hfree => ?_
  refine (learns_liftFailure (harmless_requireVersion _)).bind fun _ hversion => ?_
  have hfree : reg.catalog.get? msg.name = none := by
    rw [hstack?] at hfree
    simpa using hfree
  let stack : Stack := ⟨msg.name, msg.description, msg.fees,
    [⟨msg.image, msg.version, msg.checksum, true, msg.isConsumer⟩]⟩
  have hact : reg.Act _ (reg.putStack stack) :=
    .create msg.creator hparams hfree rfl rfl (requireVersion_ok hversion)
  exact does_putStack (hact.filed hreg) (.emit (.emit_last ⟨rfl, rfl⟩)) hact

theorem does_addVersion (msg : AddVersion) (hreg : reg.Filed) :
    (addVersion msg : Execution ω Unit).Does reg fun _ => reg.Acts := by
  refine (learns_requireStackManager _).bind fun _ _ => ?_
  refine (learns_stack msg.name).bind fun stack hstack => ?_
  refine (learns_liftFailure (harmless_requireVersion _)).bind fun _ hversion => ?_
  dsimp only
  split
  next => exact .fail rfl
  next hfree =>
    have hact : reg.Act _ (reg.putStack (stack.addVersion _)) :=
      .extend (v := ⟨msg.image, msg.version, msg.checksum, true, msg.isConsumer⟩)
        (hreg.held_stack hstack) rfl (requireVersion_ok hversion) fun w hw hcollide => by
          rw [Stack.colliding?, List.find?_eq_none] at hfree
          exact hfree w hw (decide_eq_true hcollide)
    exact does_putStack (hact.filed hreg) (.emit_last ⟨rfl, rfl⟩) hact

theorem does_disableVersion (msg : DisableVersion) (hreg : reg.Filed) :
    (disableVersion msg : Execution ω Unit).Does reg fun _ => reg.Acts := by
  refine (learns_requireStackManager _).bind fun _ _ => ?_
  refine (learns_stack msg.name).bind fun stack hstack => ?_
  split
  next => exact .fail rfl
  next v hv =>
    refine Does.ite (fun henabled => ?_) fun _ => .pure .refl
    have hact : reg.Act _ (reg.putStack (stack.disable msg.version)) :=
      .disable (hreg.held_stack hstack) (v := v) (by rw [Stack.enabled?, hv]; simp [henabled])
    exact does_putStack (hact.filed hreg) (.emit_last ⟨rfl, rfl⟩) hact

/-! ### Consumers -/

theorem does_registerConsumer (chainId : String) (spawnTime : Time) (unbonding : Duration) :
    (registerConsumer chainId spawnTime unbonding : Execution ω ConsumerId).Does reg
      fun consumer events reg' => events = Event.joining chainId (some consumer) ∧
        reg' = reg.await? chainId (some consumer) := by
  refine (learns_call _).bind fun consumer _ => (learns_ask _).bind fun id _ => ?_
  refine (learns_order _).bind fun _ _ => (learns_order _).bind fun _ _ => ?_
  exact (stores_putPendingInit chainId consumer).bind fun _ => .emit (.pure ⟨rfl, rfl⟩)

/-- What follows a registration that is made only for consumers. -/
theorem does_registerIf {α : Type} {isConsumer : Bool} {chainId : String} {spawnTime : Time}
    {unbonding : Duration} {rest : Option ConsumerId → Execution ω α}
    {Q : α → List Event → Registry → Prop}
    (hrest : ∀ consumer?, (isConsumer = true ↔ consumer?.isSome = true) →
      (rest consumer?).Does (reg.await? chainId consumer?) fun a more reg' =>
        Q a (Event.joining chainId consumer? ++ more) reg') :
    (if isConsumer = true then some <$> registerConsumer chainId spawnTime unbonding >>= rest
      else pure none >>= rest).Does reg Q := by
  refine Does.ite (fun hconsumer => ?_) fun halone => hrest none (by simp [halone])
  refine ((does_registerConsumer chainId spawnTime unbonding).map (f := some)
    (R := fun consumer? events reg' => consumer?.isSome = true ∧
      events = Event.joining chainId consumer? ∧ reg' = reg.await? chainId consumer?)
    fun consumer _ _ ⟨hevents, hreg'⟩ => ⟨rfl, hevents, hreg'⟩).bind ?_
  rintro consumer? _ _ ⟨hsome, rfl, rfl⟩
  exact hrest consumer? (by simp [hconsumer, hsome])

/-- A chainlet that is registered for a version joins if it has to. -/
theorem does_registerForVersion (c : Chainlet) (target : StackVersion) :
    (registerForVersion c target : Execution ω Chainlet).Does reg fun c' events reg' =>
      ∃ consumer?, (consumer?.isSome = true → c.isConsumer = false) ∧
        (target.isConsumer = true → c'.isConsumer = true) ∧ c' = c.join? consumer? ∧
        events = Event.joining c.chainId consumer? ∧ reg' = reg.await? c.chainId consumer? := by
  refine Does.ite (fun hready => ?_) fun hneeded => ?_
  · refine .pure ⟨none, nofun, fun htarget => ?_, rfl, rfl, rfl⟩
    simpa [htarget] using hready
  · have halone : c.isConsumer = false := by
      cases hconsumer : c.isConsumer with
      | false => rfl
      | true => simp [hconsumer] at hneeded
    refine learns_params.bind fun params _ => learns_context.bind fun _ _ => ?_
    refine (does_registerConsumer c.chainId _ _).bind ?_
    rintro consumer _ _ ⟨rfl, rfl⟩
    exact .pure ⟨some consumer, fun _ => halone, fun _ => rfl, rfl, List.append_nil _, rfl⟩

theorem does_initConsumer {chainId : String} {consumer : ConsumerId}
    (hwaits : reg.waiting.get? chainId = some consumer) :
    (initConsumer chainId consumer : Execution ω Unit).Does reg fun _ events reg' =>
      reg.Acts events reg' ∧ (reg' = reg ∨ reg' = reg.init chainId) := by
  refine (learns_ask _).bind fun phase _ => ?_
  refine Does.ite (fun _ => ?_) fun _ => .pure ⟨.refl, .inl rfl⟩
  refine (learns_ask _).bind fun channel? _ => ?_
  cases channel? with
  | none => exact .pure ⟨.refl, .inl rfl⟩
  | some channel =>
    refine (learns_attempt _).bind fun sent _ => ?_
    cases sent with
    | error reason =>
      refine (learns_log _).mono ?_
      rintro _ _ _ ⟨-, rfl, rfl⟩
      exact ⟨.refl, .inl rfl⟩
    | ok _ =>
      refine (stores_dropPendingInit chainId).bind fun _ => .emit_last ⟨?_, .inr rfl⟩
      exact (Registry.Act.init channel hwaits).acts

/-- Consumers that are initialized one after the other are different ones, so each of them still
waits when it is its turn. -/
theorem does_initConsumers_of {pending : List (String × ConsumerId)}
    (hwait : ∀ e ∈ pending, reg.waiting.get? e.1 = some e.2)
    (hapart : pending.Pairwise fun e e' => e.1 ≠ e'.1) :
    (pending.forM fun (chainId, consumer) => initConsumer chainId consumer :
      Execution ω Unit).Does reg fun _ => reg.Acts := by
  induction pending generalizing reg with
  | nil => exact .pure .refl
  | cons e rest ih =>
    refine (does_initConsumer (hwait e List.mem_cons_self)).bind ?_
    rintro _ events reg₁ ⟨hacts, hreg₁⟩
    refine (ih (fun e' he' => ?_) hapart.of_cons).mono fun _ _ _ hmore => hacts.trans hmore
    have hwaits := hwait e' (List.mem_cons_of_mem _ he')
    rcases hreg₁ with rfl | rfl
    · exact hwaits
    · have hne : e'.1 ≠ e.1 := (List.rel_of_pairwise_cons hapart he').symm
      exact (OrderedMap.get?_erase_of_ne _ hne).trans hwaits

theorem does_initConsumers :
    (initConsumers : Execution ω Unit).Does reg fun _ => reg.Acts := by
  refine learns_view.bind fun o ho => (learns_stored ho.waiting.readAll).bind fun pending hall => ?_
  subst hall
  refine does_initConsumers_of (fun e he => OrderedMap.get?_eq_some_iff.2 he) ?_
  exact OrderedMap.distinct_of_ascending reg.waiting.ascending

/-! ### Launches -/

theorem learns_requireLauncher (msg : Launch) :
    (requireLauncher msg : Execution ω Unit).Learns reg fun _ => True := by
  refine (learns_ask _).bind fun isAdmin _ => Does.guarded rfl fun _ => ?_
  exact Does.ite (fun _ => .fail rfl) fun _ => Learns.pure trivial

/-- An attempt to charge hands its failure on as a value. -/
theorem learns_tryFees (c : Chainlet) (epochs : UInt64) (fees : List StackFees) :
    (tryFees c epochs fees : Execution ω _).Learns reg fun _ => True := by
  induction fees with
  | nil => exact Learns.pure trivial
  | cons fee rest ih =>
    rw [tryFees]
    cases fee.epochCoin.times? epochs with
    | none => exact (learns_log _).bind fun _ _ => ih
    | some deposit =>
      have hcharge : (chargeFees c fee deposit : Execution ω _).Learns reg fun _ => True := by
        refine (learns_attempt _).bind fun opened _ => ?_
        cases opened with
        | error reason => exact Learns.pure trivial
        | ok _ => exact learns_attempt _
      refine hcharge.bind fun charged _ => ?_
      cases charged with
      | error reason => exact (learns_log _).bind fun _ _ => ih
      | ok _ => exact Learns.pure trivial

theorem learns_chargeLaunch (params : Params) (stack : Stack) (c : Chainlet) :
    (chargeLaunch params stack c : Execution ω String).Learns reg fun _ => True := by
  refine (learns_tryFees c params.depositEpochs stack.fees).bind fun denom? _ => ?_
  cases denom? with
  | none => exact .fail rfl
  | some denom => exact Learns.pure trivial

/-- The last steps of a launch. -/
theorem does_launch_last {params : Params} {c : Chainlet} (feeDenom? : Option String)
    (hparams : reg.params? = some params) (hroom : reg.count < params.maxChainlets)
    (hfree : reg.chainlets.get? c.chainId = none) (hsound : c.Sound reg.catalog)
    (henabled : Catalog.Enables reg.catalog c.stack c.version) (honline : c.status = .online)
    (hidle : c.upgrade? = none) :
    (do
      putChainlet c
      putChainletCount (reg.count + 1)
      emit (.launchChainlet c.chainId c.stack c.version c.launcher feeDenom?) :
        Execution ω Unit).Does (reg.await? c.chainId c.consumer?) fun _ more reg' =>
          reg.Acts (Event.joining c.chainId c.consumer? ++ more) reg' := by
  refine (stores_putChainlet c).bind fun _ => (stores_putChainletCount _).bind fun _ => ?_
  exact .emit_last
    (Registry.Act.launch feeDenom? hparams hroom hfree hsound henabled honline hidle).acts

/-- A launch acts, and needs the version to be enabled. -/
theorem does_launch {msg : Launch} {u : Unit} (hcheck : msg.check = .ok u) :
    (launch msg : Execution ω Unit).Does reg fun _ events reg' =>
      reg.Acts events reg' ∧ Catalog.Enables reg.catalog msg.stack msg.version := by
  have hvalid : ChainId.isValid msg.chainId = true := by
    obtain ⟨_, -, hcheck⟩ := Except.bind_eq_ok.1 hcheck
    obtain ⟨_, -, hcheck⟩ := Except.bind_eq_ok.1 hcheck
    obtain ⟨_, -, hcheck⟩ := Except.bind_eq_ok.1 hcheck
    obtain ⟨_, -, hcheck⟩ := Except.bind_eq_ok.1 hcheck
    obtain ⟨_, hid, -⟩ := Except.bind_eq_ok.1 hcheck
    exact requireChainId_ok hid
  refine learns_params.bind fun params hparams => (learns_requireLauncher msg).bind fun _ _ => ?_
  refine learns_view.bind fun o ho => (learns_stored ho.count).bind fun count hcount => ?_
  subst hcount
  refine Does.guarded rfl fun hroom => ?_
  have hroom : reg.count < params.maxChainlets := UInt64.not_le.1 hroom
  refine (learns_chainlet? msg.chainId).bind fun c? hc? => Does.guarded rfl fun hfree => ?_
  have hfree : reg.chainlets.get? msg.chainId = none := by
    rw [hc?] at hfree
    simpa using hfree
  refine (learns_stack msg.stack).bind fun stack hstack => ?_
  refine (learns_enabledVersion msg.stack stack msg.version).bind fun version hversion => ?_
  have henabled : Catalog.Enables reg.catalog msg.stack msg.version :=
    ⟨stack, version, hstack, hversion⟩
  refine learns_context.bind fun context _ => ?_
  dsimp only
  have hlast (denom? : Option String) (consumer? : Option ConsumerId)
      (hconsumer : version.isConsumer = true ↔ consumer?.isSome = true) :=
    (does_launch_last (ω := ω) (c := ⟨msg.chainId, msg.name, msg.creator, msg.maintainers,
        msg.stack, msg.version, .online, msg.autoUpgrade, version.isConsumer, consumer?,
        context.time, msg.isService, none⟩) denom? hparams hroom hfree
      ⟨hvalid, henabled.registers, hconsumer, nofun⟩ henabled rfl rfl).mono
        fun _ _ _ hacts => And.intro hacts henabled
  refine Does.ite (fun _ => ?_) fun _ => ?_
  · exact does_registerIf (hlast none)
  · have hcharge (c : Chainlet) : (some <$> chargeLaunch params stack c : Execution ω _).Learns reg
        fun _ => True :=
      (learns_chargeLaunch params stack c).map fun _ _ _ h => ⟨trivial, h.2⟩
    exact (hcharge _).bind fun denom? _ => does_registerIf (hlast denom?)

theorem does_setStatus (chainId : String) (status : Status) (hreg : reg.Filed) :
    (setStatus chainId status : Execution ω Bool).Does reg fun _ => reg.Acts := by
  refine (learns_chainlet chainId).bind fun c hc => ?_
  refine Does.ite (fun _ => .pure .refl) fun hchanges => ?_
  refine (stores_putChainlet _).bind fun _ => ?_
  have hact := (Registry.Act.status (hreg.held_chainlet hc) hchanges).acts
  cases status with
  | online => exact .emit (.pure hact)
  | offline => exact .emit (.pure hact)

/-! ### Upgrades -/

theorem learns_requireMaintainer (c : Chainlet) (address : String) :
    (requireMaintainer c address : Execution ω Unit).Learns reg fun _ => True :=
  Does.ite (fun _ => Learns.pure trivial) fun _ => .fail rfl

theorem learns_consumerClient (c : Chainlet) :
    (consumerClient c : Execution ω String).Learns reg fun _ => True := by
  refine (learns_ask _).bind fun client? _ => ?_
  cases client? with
  | none => exact .fail rfl
  | some client => exact Learns.pure trivial

theorem learns_openRoute (channel client : String) :
    (openRoute channel client : Execution ω Height).Learns reg fun _ => True := by
  refine (learns_ask _).bind fun routes _ => (learns_liftChannel _).bind fun _ _ => ?_
  exact (learns_liftChannel _).mono fun _ _ _ h => ⟨trivial, h.2⟩

theorem learns_step {α : Type} (chainId : String) (x : Except Handshake.Refusal α) :
    (step chainId x : Execution ω α).Learns reg fun a => x = .ok a := by
  rw [step.eq_def]
  split
  next => exact Learns.pure rfl
  next => exact .fail rfl
  next => exact .fail rfl
  next => exact .fail rfl

theorem learns_send (params : Params) (latest : Height) (channel : String) (data : PacketData) :
    (send params latest channel data : Execution ω _).Learns reg fun _ => True :=
  learns_context.bind fun _ _ => (learns_call _).bind fun _ _ => Learns.pure trivial

/-- A chainlet that has joined, if it had to, is moved to a version. -/
theorem does_applyVersion {c : Chainlet} {version : String} {consumer? : Option ConsumerId}
    (automatic : Bool) (held : reg.chainlets.get? c.chainId = some c) (idle : c.upgrade? = none)
    (alone : consumer?.isSome = true → c.isConsumer = false)
    (enabled : Catalog.Enables reg.catalog c.stack version) (other : version ≠ c.version)
    (compatible : Upgrade.kind c.version version = .ok .compatible) :
    (applyVersion (c.join? consumer?) version automatic : Execution ω Unit).Does
      (reg.await? c.chainId consumer?) fun _ more reg' =>
        more = [.upgradeChainlet c.chainId c.version version automatic] ∧
          reg' = (reg.await? c.chainId consumer?).putChainlet
            { c.join? consumer? with version } ∧
          reg.Act (Event.joining c.chainId consumer? ++ more) reg' := by
  refine (stores_putChainlet _).bind fun _ => .emit_last ?_
  have hact := Registry.Act.upgrade automatic held idle alone enabled other compatible
  cases consumer? <;> exact ⟨rfl, rfl, hact⟩

theorem does_requestUpgrade (msg : RequestUpgrade) (hreg : reg.Filed) :
    (requestUpgrade msg : Execution ω Unit).Does reg fun _ => reg.Acts := by
  refine learns_params.bind fun params _ => (learns_chainlet msg.chainId).bind fun c hc => ?_
  have hheld := hreg.held_chainlet hc
  refine (learns_requireMaintainer _ _).bind fun _ _ => Does.guarded rfl fun hpending => ?_
  have hidle : c.upgrade? = none := by simpa using hpending
  refine (learns_stack c.stack).bind fun stack hstack => ?_
  refine (learns_enabledVersion _ stack msg.version).bind fun target htarget => ?_
  have henabled : Catalog.Enables reg.catalog c.stack target.version := by
    rw [(Stack.version?_of_enabled? htarget).1]
    exact ⟨stack, target, hstack, htarget⟩
  refine Does.guarded rfl fun hother => ?_
  refine (learns_liftVersion _).bind fun kind hkind => Does.guarded rfl fun hrequires => ?_
  refine (does_registerForVersion c target).bind ?_
  rintro _ _ _ ⟨consumer?, halone, hneeded, rfl, rfl, rfl⟩
  cases kind with
  | compatible =>
    refine (does_applyVersion false hheld hidle halone henabled hother hkind).mono ?_
    exact fun _ _ _ ⟨_, _, hact⟩ => hact.acts
  | breaking =>
    have hconsumer : (c.join? consumer?).isConsumer = true := by
      cases consumer? with
      | some consumer => rfl
      | none =>
        by_cases htarget : target.isConsumer = true
        · exact hneeded htarget
        · simpa [htarget, Chainlet.join?] using hrequires
    refine (learns_consumerClient _).bind fun client _ => ?_
    refine (learns_openRoute _ _).bind fun latest _ => ?_
    refine (learns_liftVersion _).bind fun plan hplan => ?_
    refine (learns_step _ _).bind fun upgrade? hupgrade? => ?_
    rw [Chainlet.upgrade?_join?, hidle] at hupgrade?
    cases hupgrade?
    refine (learns_send _ _ _ _).bind fun sent _ => ?_
    refine (stores_putChainlet _).bind fun _ => .emit_last ?_
    rw [Chainlet.version_join?] at hplan
    let upgrade : PendingUpgrade := ⟨target.version,
      latest.add (Word.add params.minUpgradeHeightDelta msg.heightDelta), msg.channel⟩
    have hact := @Registry.Act.schedule reg c upgrade plan consumer? sent.1 sent.2 hheld hidle
      halone hconsumer henabled hkind hplan
    cases consumer? <;> exact hact.acts

theorem does_cancelUpgrade (msg : CancelUpgrade) (hreg : reg.Filed) :
    (cancelUpgrade msg : Execution ω Unit).Does reg fun _ => reg.Acts := by
  refine learns_params.bind fun params _ => (learns_chainlet msg.chainId).bind fun c hc => ?_
  refine (learns_requireMaintainer _ _).bind fun _ _ => ?_
  refine (learns_step _ _).bind fun upgrade hupgrade => ?_
  have hpending : c.upgrade? = some upgrade := by
    cases hpending : c.upgrade? with
    | none => rw [hpending] at hupgrade; cases hupgrade
    | some pending => rw [hpending] at hupgrade; cases hupgrade; rfl
  refine (learns_consumerClient _).bind fun client _ => (learns_openRoute _ _).bind fun _ _ => ?_
  refine (learns_liftVersion _).bind fun plan hplan => (learns_send _ _ _ _).bind fun sent _ => ?_
  exact .emit_last
    (Registry.Act.requestCancel sent.1 sent.2 (hreg.held_chainlet hc) hpending hplan).acts

/-- **Whatever a message asks for is done in acts.** -/
theorem does_ofMessage {msg : Message} {u : Unit} (hcheck : msg.check = .ok u) (hreg : reg.Filed) :
    (ofMessage msg : Execution ω Unit).Does reg fun _ => reg.Acts := by
  cases msg with
  | createStack msg => exact does_createStack msg hreg
  | addVersion msg => exact does_addVersion msg hreg
  | disableVersion msg => exact does_disableVersion msg hreg
  | launch msg => exact (does_launch hcheck).mono fun _ _ _ h => h.1
  | requestUpgrade msg => exact does_requestUpgrade msg hreg
  | cancelUpgrade msg => exact does_cancelUpgrade msg hreg

/-! ### Callbacks -/

theorem learns_verifiedChainlet (chainId port channel : String) :
    (verifiedChainlet chainId port channel : Execution ω Chainlet).Learns reg fun c =>
      reg.chainlets.get? chainId = some c := by
  refine (learns_chainlet chainId).bind fun c hc => ?_
  refine (learns_consumerClient c).bind fun client _ => ?_
  refine (learns_ask _).bind fun routes _ => (learns_liftChannel _).bind fun _ _ => ?_
  cases c.upgrade? with
  | none => exact Learns.pure hc
  | some upgrade => exact (learns_liftChannel _).bind fun _ _ => Learns.pure hc

/-- The last steps of a callback: what the news amount to is carried out. -/
theorem does_news {c : Chainlet} (hheld : reg.chainlets.get? c.chainId = some c)
    (news : Handshake.News) (plan : String) (height : Height) :
    (do
      let t ← step c.chainId (news.transition c.upgrade? c.version plan)
      carryOut c plan height t : Execution ω Outcome).Does reg fun _ => reg.Acts := by
  refine (learns_step _ _).bind fun t ht => ?_
  have hgiveUp {upgrade : PendingUpgrade} (reason : CancelReason)
      (hpending : c.upgrade? = some upgrade) :
      (carryOut c plan height (.cancel upgrade reason) : Execution ω Outcome).Does reg
        fun _ => reg.Acts :=
    (stores_putChainlet _).bind fun _ =>
      .emit (.pure (Registry.Act.giveUp reason hheld hpending).acts)
  have hstay : (carryOut c plan height .stay : Execution ω Outcome).Does reg fun _ => reg.Acts :=
    .pure .refl
  rcases Handshake.News.transition_cases ht with ⟨upgrade, hpending, -, rfl⟩ | ⟨⟨reason, rfl⟩, -⟩
  · cases news with
    | confirmed =>
      exact (stores_putChainlet _).bind fun _ =>
        .emit (.pure (Registry.Act.complete height hheld hpending).acts)
    | createAnswered success => cases success <;> [exact hgiveUp _ hpending; exact hstay]
    | createExpired => exact hgiveUp _ hpending
    | cancelAnswered success => cases success <;> [exact hstay; exact hgiveUp _ hpending]
    | cancelExpired => exact hstay
  · exact (learns_log _).bind fun _ _ =>
      .emit (.pure (Registry.Act.ignore plan reason hheld).acts)

/-- **What a callback does is done in acts.** -/
theorem does_callback (cb : Callback) (hreg : reg.Filed) :
    (cb.execution : Execution ω Outcome).Does reg fun _ => reg.Acts := by
  cases cb with
  | received packet =>
    refine (learns_liftPacket _).bind fun data _ => ?_
    cases data with
    | create => exact .fail rfl
    | cancel => exact .fail rfl
    | confirm chainId height plan =>
      refine (learns_liftFailure (Confirmation.harmless_check _)).bind fun _ _ => ?_
      refine (learns_verifiedChainlet _ _ _).bind fun c hc => ?_
      exact does_news (hreg.held_chainlet hc) .confirmed plan _
  | answered packet answer =>
    refine (learns_liftPacket _).bind fun data _ => (learns_liftPacket _).bind fun ack _ => ?_
    refine (learns_verifiedChainlet _ _ _).bind fun c hc => learns_context.bind fun _ _ => ?_
    have hheld := hreg.held_chainlet hc
    cases data with
    | create chainId plan => exact does_news hheld (.createAnswered ack.isSuccess) plan _
    | cancel chainId plan => exact does_news hheld (.cancelAnswered ack.isSuccess) plan _
    | confirm => exact .fail rfl
  | expired packet =>
    refine (learns_liftPacket _).bind fun data _ => ?_
    refine (learns_verifiedChainlet _ _ _).bind fun c hc => learns_context.bind fun _ _ => ?_
    have hheld := hreg.held_chainlet hc
    cases data with
    | create chainId plan => exact does_news hheld .createExpired plan _
    | cancel chainId plan => exact does_news hheld .cancelExpired plan _
    | confirm => exact .fail rfl

end Operation

end Chainlets
