import Chainlets.Proofs.Registry.Ensures
import Chainlets.Proofs.Registry.Moves

/-!
# What users' requests do to the registry

Each message that succeeds takes a well-formed registry to one that can be reached in moves. What
an operation read before it wrote is what makes its write a move: the stack that it extends is the
one that is stored, and the version that it launches or upgrades to is one of the stack.

A chainlet that joins as a consumer is marked before its record is written, and the record may also
schedule an upgrade. So the registry in between is no place where moves lead to; it is only one from
which the write of the record leads on.

## Main definitions

* `Execution.Advances` — an execution takes well-formed registries to others in moves.
* `Registry.Joined` — a chainlet is as it has to be for a version, but not written yet.

## Main results

* `Operation.advances_ofMessage`, `Operation.advances_setStatus` — **requests make moves.**
-/

namespace Chainlets

open Execution

/-- Over well-formed registries, an execution that succeeds makes moves. -/
def Execution.Advances {ω α : Type} (x : Execution ω α) : Prop :=
  ∀ reg : Registry, reg.WellFormed → x.Ensures reg fun _ => reg.Moves

namespace Execution.Advances

variable {ω α β : Type}

theorem of_unwritten {x : Execution ω α} (h : Keeps Frame.unwritten x) : x.Advances :=
  fun reg _ => .of_unwritten h fun _ => .refl reg

/-- Moves after moves are moves. -/
theorem bind {x : Execution ω α} {f : α → Execution ω β} (hx : x.Advances)
    (hf : ∀ a, (f a).Advances) : (x >>= f).Advances := fun reg hreg => by
  refine Ensures.bind (hx reg hreg) fun a reg₁ hmoves => ?_
  exact (hf a reg₁ (hmoves.wellFormed hreg)).mono fun _ _ hmoves' => hmoves.trans hmoves'

theorem forM {f : α → Execution ω Unit} (h : ∀ a, (f a).Advances) (l : List α) :
    (l.forM f).Advances := by
  induction l with
  | nil => exact of_unwritten (Keeps.pure ())
  | cons a l ih => exact (h a).bind fun _ => ih

end Execution.Advances

variable {ω : Type} {reg reg' : Registry}

/-- A last write, and parts that write nothing after it. -/
theorem Execution.Writes.ensures {α : Type} {x : Execution ω Unit} {rest : Execution ω α}
    (hx : x.Writes reg reg') (hrest : Keeps Frame.unwritten rest) (hmoves : reg.Moves reg') :
    (x >>= fun _ => rest).Ensures reg fun _ => reg.Moves :=
  hx.bind fun _ => .of_unwritten hrest fun _ => hmoves

/-! ### Stacks -/

theorem Stack.version?_of_enabled? {stack : Stack} {version : String} {v : StackVersion}
    (h : stack.enabled? version = some v) :
    v.version = version ∧ (stack.version? version).isSome = true := by
  have hversion : stack.version? version = some v := (Option.filter_eq_some_iff.1 h).1
  exact ⟨by simpa using List.find?_some hversion, by rw [hversion]; rfl⟩

/-- A version that is offered by the stack of a name is one of the catalog. -/
theorem Catalog.Registers.of_enabled? {catalog : Catalog} {name version : String} {stack : Stack}
    {v : StackVersion} (hstack : OrderedMap.get? catalog name = some stack)
    (h : stack.enabled? version = some v) : Catalog.Registers catalog name version :=
  ⟨stack, hstack, (Stack.version?_of_enabled? h).2⟩

/-- A stack is stored under the name that it has. -/
theorem Registry.Filed.held_stack (h : reg.Filed) {name : String} {stack : Stack}
    (hstack : reg.catalog.get? name = some stack) : reg.catalog.get? stack.name = some stack := by
  rw [(h.catalog hstack).1, hstack]

/-- A chainlet is stored under the chain id that it has. -/
theorem Registry.Filed.held_chainlet (h : reg.Filed) {chainId : String} {c : Chainlet}
    (hc : reg.chainlets.get? chainId = some c) : reg.chainlets.get? c.chainId = some c := by
  rw [h.chainlets chainId c hc, hc]

namespace Operation

theorem advances_createStack (msg : CreateStack) :
    (createStack msg : Execution ω Unit).Advances := by
  intro reg hreg
  refine (Keeps.reads_of_still (still_requireStackManager _) reg).bind fun _ _ => ?_
  refine (reads_stack? msg.name).bind fun stack? hstack? => Ensures.guarded fun hfree => ?_
  refine (reads_liftFailure _).bind fun _ hversion => ?_
  obtain ⟨p, hp⟩ := requireVersion_ok hversion
  refine (writes_putStack _).ensures ?_ (Registry.Move.moves (.create ?_ ?_))
  · refine (unwritten_changeTree _).bind fun _ => ?_
    exact (unwritten_emit _).bind fun _ => unwritten_emit _
  · rw [hstack?] at hfree
    simpa using hfree
  · exact wellFormed_of_single rfl hp

theorem advances_addVersion (msg : AddVersion) : (addVersion msg : Execution ω Unit).Advances := by
  intro reg hreg
  refine (Keeps.reads_of_still (still_requireStackManager _) reg).bind fun _ _ => ?_
  refine (reads_stack msg.name).bind fun stack hstack => ?_
  refine (reads_liftFailure _).bind fun _ hversion => ?_
  dsimp only
  split
  next => exact .fail _
  next hfree =>
    refine (writes_putStack _).ensures ?_
      (Registry.Move.moves (.extend (hreg.filed.held_stack hstack) ?_ ?_))
    · exact (unwritten_changeTree _).bind fun _ => unwritten_emit _
    · exact requireVersion_ok hversion
    · intro w hw hcollide
      rw [Stack.colliding?, List.find?_eq_none] at hfree
      exact hfree w hw (decide_eq_true hcollide)

theorem advances_disableVersion (msg : DisableVersion) :
    (disableVersion msg : Execution ω Unit).Advances := by
  intro reg hreg
  refine (Keeps.reads_of_still (still_requireStackManager _) reg).bind fun _ _ => ?_
  refine (reads_stack msg.name).bind fun stack hstack => ?_
  split
  next => exact .fail _
  next =>
    refine Ensures.ite (fun _ => ?_) fun _ => .pure (.refl reg)
    refine (writes_putStack _).ensures ?_
      (Registry.Move.moves (.disable msg.version (hreg.filed.held_stack hstack)))
    exact (unwritten_changeTree _).bind fun _ => unwritten_emit _

end Operation

/-! ### Consumers -/

/-- A chainlet is as it has to be for a version, but its record is not written yet: it is the same,
or it joined as a consumer and waits. -/
inductive Registry.Joined (reg : Registry) (c : Chainlet) : Chainlet → Registry → Prop
  | same : Joined reg c c reg
  | joined (consumer : ConsumerId) (alone : c.isConsumer = false) :
    Joined reg c (c.join consumer) (reg.await c.chainId consumer)

/-- A record that is written over another one of the same chainlet. -/
theorem Registry.putChainlet_putChainlet (reg : Registry) {c d : Chainlet}
    (h : d.chainId = c.chainId) : (reg.putChainlet c).putChainlet d = reg.putChainlet d := by
  simp only [putChainlet, h, OrderedMap.insert_insert]

namespace Registry.Joined

variable {c c' d : Chainlet}

theorem version_eq (h : reg.Joined c c' reg') : c'.version = c.version := by cases h <;> rfl

theorem stack_eq (h : reg.Joined c c' reg') : c'.stack = c.stack := by cases h <;> rfl

theorem chainId_eq (h : reg.Joined c c' reg') : c'.chainId = c.chainId := by cases h <;> rfl

theorem upgrade?_eq (h : reg.Joined c c' reg') : c'.upgrade? = c.upgrade? := by cases h <;> rfl

theorem chainlets_eq (h : reg.Joined c c' reg') : reg'.chainlets = reg.chainlets := by
  cases h <;> rfl

/-- The record that is written after a chainlet joined, and perhaps turned, is where moves lead. -/
theorem moves (h : reg.Joined c c' reg') (hc : reg.chainlets.get? c.chainId = some c)
    (hturn : c'.Turn reg.catalog d) : reg.Moves (reg'.putChainlet d) := by
  cases h with
  | same => exact Move.moves (.turn hc hturn)
  | joined consumer alone =>
    have hjoin : reg.Moves ((reg.await c.chainId consumer).putChainlet (c.join consumer)) :=
      Move.moves (.join consumer hc alone)
    refine hjoin.trans ?_
    have hheld : ((reg.await c.chainId consumer).putChainlet (c.join consumer)).chainlets.get?
        (c.join consumer).chainId = some (c.join consumer) := OrderedMap.get?_insert_self ..
    have hlast := Move.moves (Move.turn hheld hturn)
    rwa [putChainlet_putChainlet _ hturn.chainId_eq] at hlast

end Registry.Joined

namespace Operation

theorem registerConsumer_ensures (chainId : String) (spawnTime : Time) (unbonding : Duration) :
    (registerConsumer chainId spawnTime unbonding : Execution ω ConsumerId).Ensures reg
      fun consumer reg' => reg' = reg.await chainId consumer := by
  refine (Keeps.reads_of_outside (outside_call _) reg).bind fun consumer _ => ?_
  refine (Keeps.reads_of_still (still_ask _) reg).bind fun id _ => ?_
  refine (Keeps.reads_of_outside (outside_order _) reg).bind fun _ _ => ?_
  refine (Keeps.reads_of_outside (outside_order _) reg).bind fun _ _ => ?_
  refine (writes_putPendingInit chainId consumer).bind fun _ => ?_
  exact (Keeps.reads (unwritten_emit _) _).bind fun _ _ => .pure rfl

/-- What follows a registration that is made only for consumers. -/
theorem registerIf_ensures {α : Type} {isConsumer : Bool} {chainId : String} {spawnTime : Time}
    {unbonding : Duration} {rest : Option ConsumerId → Execution ω α} {Q : α → Registry → Prop}
    (hrest : ∀ consumer?, (isConsumer = true ↔ consumer?.isSome = true) →
      (rest consumer?).Ensures (reg.await? chainId consumer?) Q) :
    (if isConsumer = true then some <$> registerConsumer chainId spawnTime unbonding >>= rest
      else pure none >>= rest).Ensures reg Q := by
  refine Ensures.ite (fun hconsumer => ?_) fun halone => ?_
  · refine ((registerConsumer_ensures chainId spawnTime unbonding).map (f := some)
      (R := fun consumer? reg' => reg' = reg.await? chainId consumer? ∧ consumer?.isSome = true)
      fun consumer reg' heq => ⟨heq, rfl⟩).bind ?_
    rintro consumer? _ ⟨rfl, hsome⟩
    exact hrest consumer? (by simp [hconsumer, hsome])
  · exact hrest none (by simp [halone])

/-- Once a chainlet is registered for a version it is a consumer, if the version needs that. -/
theorem registerForVersion_ensures (c : Chainlet) (target : StackVersion) :
    (registerForVersion c target : Execution ω Chainlet).Ensures reg fun c' reg' =>
      reg.Joined c c' reg' ∧ (target.isConsumer = true → c'.isConsumer = true) := by
  refine Ensures.ite (fun hready => ?_) fun hneeded => ?_
  · refine .pure ⟨.same, fun htarget => ?_⟩
    simpa [htarget] using hready
  · have halone : c.isConsumer = false := by
      cases hconsumer : c.isConsumer with
      | false => rfl
      | true => simp [hconsumer] at hneeded
    refine reads_params.bind fun params _ => ?_
    refine (Keeps.reads_of_still still_context reg).bind fun _ _ => ?_
    refine Ensures.bind (registerConsumer_ensures _ _ _) fun consumer _ heq => ?_
    exact heq ▸ .pure ⟨.joined consumer halone, fun _ => rfl⟩

theorem advances_initConsumer (chainId : String) (consumer : ConsumerId) :
    (initConsumer chainId consumer : Execution ω Unit).Advances := by
  intro reg hreg
  refine (Keeps.reads_of_still (still_ask _) reg).bind fun phase _ => ?_
  refine Ensures.ite (fun _ => ?_) fun _ => .pure (.refl reg)
  refine (Keeps.reads_of_still (still_ask _) reg).bind fun channel? _ => ?_
  cases channel? with
  | none => exact .pure (.refl reg)
  | some channel =>
    refine (Keeps.reads_of_outside (outside_attempt _) reg).bind fun sent _ => ?_
    cases sent with
    | error reason =>
      exact .of_unwritten (unwritten_of_outside (outside_log _)) fun _ => .refl reg
    | ok _ =>
      exact (writes_dropPendingInit chainId).ensures (unwritten_emit _)
        (Registry.Move.moves (.init chainId))

theorem advances_initConsumers : (initConsumers : Execution ω Unit).Advances := by
  intro reg hreg
  refine reads_view.bind fun o _ => (reads_liftStorage _).bind fun pending _ => ?_
  exact Advances.forM (fun _ => advances_initConsumer _ _) pending reg hreg

/-! ### Chainlets -/

/-- The last steps of a launch. -/
theorem launch_ensures {params : Params} {c : Chainlet}
    (hparams : reg.params? = some params) (hroom : reg.count < params.maxChainlets)
    (hfree : reg.chainlets.get? c.chainId = none) (hsound : c.Sound reg.catalog) (event : Event) :
    (do
      putChainlet c
      putChainletCount (reg.count + 1)
      emit event : Execution ω Unit).Ensures (reg.await? c.chainId c.consumer?)
        fun _ => reg.Moves := by
  refine (writes_putChainlet c).bind fun _ => (writes_putChainletCount _).bind fun _ => ?_
  exact .of_unwritten (unwritten_emit event) fun _ =>
    Registry.Move.moves (.launch hparams hroom hfree hsound)

theorem advances_launch {msg : Launch} {u : Unit} (hcheck : msg.check = .ok u) :
    (launch msg : Execution ω Unit).Advances := by
  intro reg hreg
  have hvalid : ChainId.isValid msg.chainId = true := by
    obtain ⟨_, -, hcheck⟩ := Except.bind_eq_ok.1 hcheck
    obtain ⟨_, -, hcheck⟩ := Except.bind_eq_ok.1 hcheck
    obtain ⟨_, -, hcheck⟩ := Except.bind_eq_ok.1 hcheck
    obtain ⟨_, -, hcheck⟩ := Except.bind_eq_ok.1 hcheck
    obtain ⟨_, hid, -⟩ := Except.bind_eq_ok.1 hcheck
    exact requireChainId_ok hid
  refine reads_params.bind fun params hparams => ?_
  refine (Keeps.reads_of_still (still_requireLauncher msg) reg).bind fun _ _ => ?_
  refine reads_view.bind fun o ho => (reads_liftStorage _).bind fun count hcount => ?_
  obtain rfl : reg.count = count := Except.ok.inj (ho.count.symm.trans hcount)
  refine Ensures.guarded fun hroom => ?_
  have hroom : reg.count < params.maxChainlets := UInt64.not_le.1 hroom
  refine (reads_chainlet? msg.chainId).bind fun c? hc? => Ensures.guarded fun hfree => ?_
  have hfree : reg.chainlets.get? msg.chainId = none := by
    rw [hc?] at hfree
    simpa using hfree
  refine (reads_stack msg.stack).bind fun stack hstack => ?_
  refine (reads_enabledVersion msg.stack stack msg.version).bind fun version hversion => ?_
  have hregistered := Catalog.Registers.of_enabled? hstack hversion
  refine (Keeps.reads_of_still still_context reg).bind fun context _ => ?_
  dsimp only
  -- The record and the number are written last, after the mark of a consumer.
  have hlast (denom? : Option String) {consumer? : Option ConsumerId}
      (hconsumer : version.isConsumer = true ↔ consumer?.isSome = true) :=
    launch_ensures (ω := ω) hparams hroom hfree
      (c := ⟨msg.chainId, msg.name, msg.creator, msg.maintainers, msg.stack, msg.version, .online,
        msg.autoUpgrade, version.isConsumer, consumer?, context.time, msg.isService, none⟩)
      ⟨hvalid, hregistered, hconsumer, fun _ hnone => by cases hnone⟩
      (.launchChainlet msg.chainId msg.stack msg.version msg.creator denom?)
  refine Ensures.ite (fun _ => ?_) fun _ => ?_
  · refine (Keeps.reads (Keeps.pure _) reg).bind fun denom? _ => ?_
    exact registerIf_ensures fun consumer? hconsumer => hlast denom? hconsumer
  · refine (Keeps.reads ?_ reg).bind fun denom? _ => ?_
    · exact (unwritten_of_outside (outside_chargeLaunch _ _ _)).map _
    · exact registerIf_ensures fun consumer? hconsumer => hlast denom? hconsumer

theorem advances_setStatus (chainId : String) (status : Status) :
    (setStatus chainId status : Execution ω Bool).Advances := by
  intro reg hreg
  refine (reads_chainlet chainId).bind fun c hc => ?_
  refine Ensures.ite (fun _ => .pure (.refl reg)) fun _ => ?_
  refine (writes_putChainlet _).ensures ?_
    (Registry.Move.moves (.turn (hreg.filed.held_chainlet hc) (.status status)))
  exact (unwritten_emit _).bind fun _ => Keeps.pure _

/-! ### Upgrades -/

theorem reads_step {α : Type} (chainId : String) (x : Except Handshake.Refusal α) :
    (step chainId x : Execution ω α).Reads reg fun a => x = .ok a := by
  rw [step.eq_def]
  split
  next => exact Reads.pure rfl
  next => exact .fail _
  next => exact .fail _
  next => exact .fail _

theorem reads_consumerClient (c : Chainlet) :
    (consumerClient c : Execution ω String).Reads reg fun _ => c.consumer?.isSome = true := by
  refine (reads_ask _).bind fun client? hclient? => ?_
  obtain ⟨parent, world, hclient?⟩ := hclient?
  cases client? with
  | none => exact .fail _
  | some client =>
    obtain ⟨consumer, hconsumer, -⟩ := Option.bind_eq_some_iff.1 hclient?.symm
    exact Reads.pure (by rw [hconsumer]; rfl)

theorem advances_requestUpgrade (msg : RequestUpgrade) :
    (requestUpgrade msg : Execution ω Unit).Advances := by
  intro reg hreg
  refine reads_params.bind fun params _ => ?_
  refine (reads_chainlet msg.chainId).bind fun c hc => ?_
  have hheld := hreg.filed.held_chainlet hc
  refine (Keeps.reads_of_still (still_requireMaintainer _ _) reg).bind fun _ _ => ?_
  refine Ensures.guarded fun hpending => ?_
  have hidle : c.upgrade? = none := by simpa using hpending
  refine (reads_stack c.stack).bind fun stack hstack => ?_
  refine (reads_enabledVersion _ stack msg.version).bind fun target htarget => ?_
  have hregistered : Catalog.Registers reg.catalog c.stack target.version := by
    rw [(Stack.version?_of_enabled? htarget).1]
    exact .of_enabled? hstack htarget
  refine Ensures.guarded fun _ => ?_
  refine (reads_liftVersion _).bind fun kind hkind => Ensures.guarded fun hrequires => ?_
  refine Ensures.bind (registerForVersion_ensures c target) fun c' reg' ⟨hjoined, hneeded⟩ => ?_
  have hidle' : c'.upgrade? = none := by rw [hjoined.upgrade?_eq, hidle]
  have hregistered' : Catalog.Registers reg.catalog c'.stack target.version := by
    rwa [hjoined.stack_eq]
  cases kind with
  | compatible =>
    have hcompatible : Upgrade.kind c'.version target.version = .ok .compatible := by
      rw [hjoined.version_eq, hkind]
    refine (writes_putChainlet _).bind fun _ => ?_
    exact .of_unwritten (unwritten_emit _) fun _ =>
      hjoined.moves hheld (.upgrade hidle' hregistered' hcompatible)
  | breaking =>
    have hconsumer : c'.isConsumer = true := by
      cases hjoined with
      | joined => rfl
      | same =>
        by_cases htarget : target.isConsumer = true
        · exact hneeded htarget
        · simpa [htarget] using hrequires
    have hbreaking : Upgrade.kind c'.version target.version = .ok .breaking := by
      rw [hjoined.version_eq, hkind]
    refine (reads_consumerClient c').bind fun client _ => ?_
    refine (Keeps.reads_of_still (still_openRoute _ _) reg').bind fun latest _ => ?_
    refine (reads_liftVersion _).bind fun planName _ => ?_
    refine (reads_step c'.chainId _).bind fun upgrade? hupgrade? => ?_
    rw [hidle'] at hupgrade?
    cases hupgrade?
    refine (Keeps.reads_of_outside (outside_send _ _ _ _) reg').bind fun _ _ => ?_
    refine (writes_putChainlet _).bind fun _ => ?_
    exact .of_unwritten (unwritten_emit _) fun _ =>
      hjoined.moves hheld (.schedule hidle' hconsumer hregistered' hbreaking)

/-- **Whatever a message asks for is done in moves.** -/
theorem advances_ofMessage {msg : Message} {u : Unit} (hcheck : msg.check = .ok u) :
    (ofMessage msg : Execution ω Unit).Advances := by
  cases msg with
  | createStack msg => exact advances_createStack msg
  | addVersion msg => exact advances_addVersion msg
  | disableVersion msg => exact advances_disableVersion msg
  | launch msg => exact advances_launch hcheck
  | requestUpgrade msg => exact advances_requestUpgrade msg
  | cancelUpgrade msg => exact .of_unwritten (unwritten_of_noting (noting_cancelUpgrade msg))

end Operation

end Chainlets
