import Chainlets.Controller
import Chainlets.Proofs.Execution.Frame

/-!
# What frames allow

Operations are made of few kinds of steps: they read, they write records of chainlets or of stacks,
they use the version tree, they leave events, and they call the parent chain. A frame that allows
for the steps of an operation is kept by the operation. So an operation is taken apart once, here,
and of a frame only the steps have to be looked at.

Some operations make steps that others do not: they write stacks, send packets, or initialize
consumers. A frame may be about one of these, and then it allows for the rest only.

## Main definitions

* `Event.isNotice`, `Event.isInit` — events that tell of packets, and of initializations.
* `Frame.AllowsRecords` — writes of chainlets, and what goes with them.
* `Frame.AllowsStacks`, `Frame.AllowsCalls`, `Frame.AllowsPackets`, `Frame.AllowsInits` — more.
* `Operation.scan`, `Operation.keepHouse` — what is done at the beginning of a block before and after
  consumers are initialized.

## Main results

* `Operation.keeps_createStack`, `Operation.keeps_launch`, `Operation.keeps_beginBlock`, … —
  **operations keep the frames that allow for their steps.**
* `Operation.beginBlock_eq` — the beginning of a block, in three parts.
-/

namespace Chainlets

open Execution

/-- Whether an event tells of a packet that was sent. -/
def Event.isNotice : Event → Bool
  | .scheduleUpgrade .. | .requestCancelUpgrade .. => true
  | _ => false

/-- Whether an event tells that a consumer was initialized. -/
def Event.isInit : Event → Bool
  | .initConsumer .. => true
  | _ => false

namespace Frame

variable {ω : Type}

/-- A frame that allows for writing records of chainlets, for using the version tree, and for
events that tell neither of packets nor of initializations. -/
structure AllowsRecords (F : Frame ω) : Prop where
  log : ∀ entry, Keeps F (Execution.log entry)
  emit : ∀ {event : Event}, event.isNotice = false → event.isInit = false →
    Keeps F (Execution.emit event)
  putChainlet : ∀ c, Keeps F (Execution.putChainlet c)
  putChainletCount : ∀ count, Keeps F (Execution.putChainletCount count)
  putPendingInit : ∀ chainId consumer, Keeps F (Execution.putPendingInit chainId consumer)
  tree : Keeps F Execution.tree

/-- A frame that also allows for writing stacks and parameters, and for changing the version
tree. -/
structure AllowsStacks (F : Frame ω) : Prop extends F.AllowsRecords where
  putStack : ∀ stack, Keeps F (Execution.putStack stack)
  putParams : ∀ params, Keeps F (Execution.putParams params)
  changeTree : ∀ f, Keeps F (Execution.changeTree f)
  discardTree : Keeps F Execution.discardTree

/-- A frame that also allows for calls of the parent chain that charge for chainlets and register
consumers, and for parts that are undone if they fail. -/
structure AllowsCalls (F : Frame ω) : Prop extends F.AllowsRecords where
  openEscrow : ∀ payer chainId deposit,
    Keeps F (attempt fun parent => parent.openEscrow payer chainId deposit)
  bill : ∀ amount c memo, Keeps F (attempt fun parent => parent.bill amount c memo)
  createConsumer : ∀ chainId spawnTime unbonding,
    Keeps F (attempt fun parent => parent.createConsumer chainId spawnTime unbonding)
  queueChange : ∀ consumer change,
    Keeps F (order fun parent => parent.queueChange consumer change)
  advanceValidatorSetId : Keeps F (order Parent.advanceValidatorSetId)
  atomic : ∀ {α : Type} {x : Execution ω α}, Keeps F x → Keeps F x.atomic

/-- A frame that also allows for sending packets, and for telling of it. -/
structure AllowsPackets (F : Frame ω) : Prop extends F.AllowsCalls where
  sendPacket : ∀ port channel timeoutHeight timeoutTime data,
    Keeps F (attempt fun parent => parent.sendPacket port channel timeoutHeight timeoutTime data)
  notice : ∀ {event : Event}, event.isNotice = true → Keeps F (Execution.emit event)

/-- A frame that also allows for initializing consumers, and for the host's own work. -/
structure AllowsInits (F : Frame ω) : Prop extends F.AllowsCalls where
  sendChanges : ∀ consumer channel,
    Keeps F (attempt fun parent => parent.sendChanges consumer channel)
  dropPendingInit : ∀ chainId, Keeps F (drop (.pendingInit chainId))
  init : ∀ {event : Event}, event.isInit = true → Keeps F (Execution.emit event)
  housekeeping : ∀ height time, Keeps F (attempt fun parent world =>
    match parent.housekeeping? with
    | some housekeeping => housekeeping height time world
    | none => (.ok (), world))

variable {F : Frame ω}

/-- A frame that does not look beyond the context allows for all calls. -/
theorem AllowsCalls.of_outside (h : F.AllowsRecords)
    (houtside : ∀ {α : Type} {x : Execution ω α}, Keeps outside x → Keeps F x)
    (hatomic : ∀ {α : Type} {x : Execution ω α}, Keeps F x → Keeps F x.atomic) : F.AllowsCalls :=
  { h with
    openEscrow := fun _ _ _ => houtside (outside_attempt _)
    bill := fun _ _ _ => houtside (outside_attempt _)
    createConsumer := fun _ _ _ => houtside (outside_attempt _)
    queueChange := fun _ _ => houtside (outside_order _)
    advanceValidatorSetId := houtside (outside_order _)
    atomic := hatomic }

end Frame

/-- A call that fails if the parent chain fails. -/
theorem Execution.Keeps.call {ω α : Type} {F : Frame ω} {command : Parent ω → ω → Called ω α}
    (h : Keeps F (attempt command)) : Keeps F (call command) :=
  h.bind fun
    | .ok a => Keeps.pure a
    | .error _ => Keeps.fail _

namespace Operation

variable {ω : Type} {F : Frame ω}

/-! ### Checks -/

theorem still_requireStackManager (address : String) :
    Keeps Frame.still (requireStackManager address : Execution ω Unit) :=
  still_params.bind fun _ => (still_ask _).bind fun _ => Keeps.ite (Keeps.fail _) (Keeps.pure _)

theorem still_requireLauncher (msg : Launch) :
    Keeps Frame.still (requireLauncher msg : Execution ω Unit) :=
  (still_ask _).bind fun _ => Keeps.guarded (Keeps.ite (Keeps.fail _) (Keeps.pure _))

theorem still_requireMaintainer (chainlet : Chainlet) (address : String) :
    Keeps Frame.still (requireMaintainer chainlet address : Execution ω Unit) :=
  Keeps.ite (Keeps.pure _) (Keeps.fail _)

theorem still_consumerClient (chainlet : Chainlet) :
    Keeps Frame.still (consumerClient chainlet : Execution ω String) :=
  (still_ask _).bind fun
    | some client => Keeps.pure client
    | none => Keeps.fail _

theorem still_step {α : Type} (chainId : String) (x : Except Handshake.Refusal α) :
    Keeps Frame.still (step chainId x : Execution ω α) := by
  rw [step.eq_def]
  split
  · exact Keeps.pure _
  · exact Keeps.fail _
  · exact Keeps.fail _
  · exact Keeps.fail _

theorem still_openRoute (channel client : String) :
    Keeps Frame.still (openRoute channel client : Execution ω Height) :=
  (still_ask _).bind fun _ => (still_liftChannel _).bind fun _ => still_liftChannel _

theorem still_verifiedChainlet (chainId port channel : String) :
    Keeps Frame.still (verifiedChainlet chainId port channel : Execution ω Chainlet) := by
  refine (still_chainlet _).bind fun chainlet => ?_
  refine (still_consumerClient _).bind fun client => ?_
  refine (still_ask _).bind fun routes => (still_liftChannel _).bind fun _ => ?_
  cases chainlet.upgrade? with
  | none => exact Keeps.pure _
  | some upgrade => exact (still_liftChannel _).bind fun _ => Keeps.pure _

/-! ### Stacks -/

theorem keeps_createStack (h : F.AllowsStacks) (msg : CreateStack) : Keeps F (createStack msg) := by
  refine (still_requireStackManager _).of_still.bind fun _ => ?_
  refine (still_stack? _).of_still.bind fun _ => Keeps.guarded ?_
  refine (still_liftFailure _).of_still.bind fun _ => ?_
  refine (h.putStack _).bind fun _ => (h.changeTree _).bind fun _ => ?_
  exact (h.emit rfl rfl).bind fun _ => h.emit rfl rfl

theorem keeps_addVersion (h : F.AllowsStacks) (msg : AddVersion) : Keeps F (addVersion msg) := by
  refine (still_requireStackManager _).of_still.bind fun _ => ?_
  refine (still_stack _).of_still.bind fun stack => ?_
  refine (still_liftFailure _).of_still.bind fun _ => ?_
  dsimp only
  split
  · exact Keeps.fail _
  · exact (h.putStack _).bind fun _ => (h.changeTree _).bind fun _ => h.emit rfl rfl

theorem keeps_disableVersion (h : F.AllowsStacks) (msg : DisableVersion) :
    Keeps F (disableVersion msg) := by
  refine (still_requireStackManager _).of_still.bind fun _ => ?_
  refine (still_stack _).of_still.bind fun stack => ?_
  split
  · exact Keeps.fail _
  · refine Keeps.ite ?_ (Keeps.pure _)
    exact (h.putStack _).bind fun _ => (h.changeTree _).bind fun _ => h.emit rfl rfl

theorem keeps_importGenesis (h : F.AllowsStacks) (genesis : Genesis) :
    Keeps F (importGenesis genesis) := by
  refine (still_liftFailure _).of_still.bind fun _ => (h.putParams _).bind fun _ => ?_
  refine (Keeps.forM fun stack _ => h.putStack stack).bind fun _ => ?_
  refine (Keeps.forM fun c _ => h.putChainlet c).bind fun _ => ?_
  exact (h.putChainletCount _).bind fun _ => h.discardTree.bind fun _ => h.log _

/-! ### Consumers and launches -/

theorem keeps_registerConsumer (h : F.AllowsCalls) (chainId : String) (spawnTime : Time)
    (unbonding : Duration) : Keeps F (registerConsumer chainId spawnTime unbonding) := by
  refine (h.createConsumer _ _ _).call.bind fun consumer => (still_ask _).of_still.bind fun id => ?_
  refine (h.queueChange _ _).bind fun _ => h.advanceValidatorSetId.bind fun _ => ?_
  refine (h.putPendingInit _ _).bind fun _ => ?_
  exact (h.emit rfl rfl).bind fun _ => Keeps.pure _

theorem keeps_registerForVersion (h : F.AllowsCalls) (c : Chainlet) (target : StackVersion) :
    Keeps F (registerForVersion c target) := by
  refine Keeps.ite (Keeps.pure _) ?_
  refine still_params.of_still.bind fun params => still_context.of_still.bind fun _ => ?_
  exact (keeps_registerConsumer h _ _ _).bind fun _ => Keeps.pure _

/-- Charging is logging and calling. -/
theorem keeps_tryFees (hlog : ∀ entry, Keeps F (log entry))
    (hescrow : ∀ payer chainId deposit,
      Keeps F (attempt fun parent => parent.openEscrow payer chainId deposit))
    (hbill : ∀ amount c memo, Keeps F (attempt fun parent => parent.bill amount c memo))
    (c : Chainlet) (epochs : UInt64) (fees : List StackFees) : Keeps F (tryFees c epochs fees) := by
  induction fees with
  | nil => exact Keeps.pure _
  | cons fee rest ih =>
    rw [tryFees]
    cases fee.epochCoin.times? epochs with
    | none => exact (hlog _).bind fun _ => ih
    | some deposit =>
      have hcharge : Keeps F (chargeFees c fee deposit) := by
        refine (hescrow _ _ _).bind fun opened => ?_
        cases opened with
        | error reason => exact Keeps.pure _
        | ok _ => exact hbill _ _ _
      refine hcharge.bind fun charged => ?_
      cases charged with
      | error reason => exact (hlog _).bind fun _ => ih
      | ok _ => exact Keeps.pure _

theorem outside_chargeLaunch (params : Params) (stack : Stack) (c : Chainlet) :
    Keeps Frame.outside (chargeLaunch params stack c : Execution ω String) :=
  (keeps_tryFees outside_log (fun _ _ _ => outside_attempt _) (fun _ _ _ => outside_attempt _) c
    params.depositEpochs stack.fees).bind fun
    | some denom => Keeps.pure denom
    | none => Keeps.fail _

theorem keeps_chargeLaunch (h : F.AllowsCalls) (params : Params) (stack : Stack) (c : Chainlet) :
    Keeps F (chargeLaunch params stack c) :=
  (keeps_tryFees h.log h.openEscrow h.bill c params.depositEpochs stack.fees).bind fun
    | some denom => Keeps.pure denom
    | none => Keeps.fail _

theorem keeps_launch (h : F.AllowsCalls) (msg : Launch) : Keeps F (launch msg) := by
  refine still_params.of_still.bind fun params => ?_
  refine (still_requireLauncher msg).of_still.bind fun _ => ?_
  refine still_view.of_still.bind fun _ => (still_liftStorage _).of_still.bind fun count => ?_
  refine Keeps.guarded ?_
  refine (still_chainlet? _).of_still.bind fun _ => Keeps.guarded ?_
  refine (still_stack _).of_still.bind fun stack => ?_
  refine (still_enabledVersion _ _ _).of_still.bind fun version => ?_
  refine still_context.of_still.bind fun _ => ?_
  -- The rest of a launch, once it is paid for and the chainlet is registered.
  have hrest (c : Chainlet) (denom? : Option String) : Keeps F (do
      putChainlet c
      putChainletCount (count + 1)
      emit (.launchChainlet msg.chainId msg.stack msg.version msg.creator denom?)) :=
    (h.putChainlet _).bind fun _ => (h.putChainletCount _).bind fun _ => h.emit rfl rfl
  refine Keeps.ite ?_ ?_
  · refine (Keeps.pure _).bind fun denom? => Keeps.ite ?_ ?_
    · exact ((keeps_registerConsumer h _ _ _).map _).bind fun _ => hrest _ _
    · exact (Keeps.pure _).bind fun _ => hrest _ _
  · refine ((keeps_chargeLaunch h _ _ _).map _).bind fun denom? => Keeps.ite ?_ ?_
    · exact ((keeps_registerConsumer h _ _ _).map _).bind fun _ => hrest _ _
    · exact (Keeps.pure _).bind fun _ => hrest _ _

theorem keeps_setStatus (h : F.AllowsRecords) (chainId : String) (status : Status) :
    Keeps F (setStatus chainId status) := by
  refine (still_chainlet _).of_still.bind fun c => Keeps.ite (Keeps.pure _) ?_
  refine (h.putChainlet _).bind fun _ => Keeps.bind ?_ fun _ => Keeps.pure _
  cases status <;> exact h.emit rfl rfl

theorem keeps_applyVersion (h : F.AllowsRecords) (c : Chainlet) (version : String)
    (automatic : Bool) : Keeps F (applyVersion c version automatic) :=
  (h.putChainlet _).bind fun _ => h.emit rfl rfl

/-! ### Upgrades -/

theorem outside_send (params : Params) (latest : Height) (channel : String) (data : PacketData) :
    Keeps Frame.outside (send params latest channel data : Execution ω _) :=
  still_context.of_still.bind fun _ => (outside_call _).bind fun _ => Keeps.pure _

theorem keeps_send (h : F.AllowsPackets) (params : Params) (latest : Height) (channel : String)
    (data : PacketData) : Keeps F (send params latest channel data) :=
  still_context.of_still.bind fun _ => (h.sendPacket _ _ _ _ _).call.bind fun _ => Keeps.pure _

theorem keeps_requestUpgrade (h : F.AllowsPackets) (msg : RequestUpgrade) :
    Keeps F (requestUpgrade msg) := by
  refine still_params.of_still.bind fun params => ?_
  refine (still_chainlet _).of_still.bind fun c => ?_
  refine (still_requireMaintainer _ _).of_still.bind fun _ => Keeps.guarded ?_
  refine (still_stack _).of_still.bind fun stack => ?_
  refine (still_enabledVersion _ _ _).of_still.bind fun target => Keeps.guarded ?_
  refine (still_liftVersion _).of_still.bind fun kind => Keeps.guarded ?_
  refine (keeps_registerForVersion h.toAllowsCalls _ _).bind fun c => ?_
  cases kind with
  | compatible => exact keeps_applyVersion h.toAllowsRecords _ _ _
  | breaking =>
    refine (still_consumerClient _).of_still.bind fun client => ?_
    refine (still_openRoute _ _).of_still.bind fun latest => ?_
    refine (still_liftVersion _).of_still.bind fun plan => ?_
    refine (still_step _ _).of_still.bind fun upgrade? => ?_
    refine (keeps_send h _ _ _ _).bind fun _ => ?_
    exact (h.putChainlet _).bind fun _ => h.notice rfl

theorem keeps_cancelUpgrade (h : F.AllowsPackets) (msg : CancelUpgrade) :
    Keeps F (cancelUpgrade msg) := by
  refine still_params.of_still.bind fun params => ?_
  refine (still_chainlet _).of_still.bind fun c => ?_
  refine (still_requireMaintainer _ _).of_still.bind fun _ => ?_
  refine (still_step _ _).of_still.bind fun upgrade => ?_
  refine (still_consumerClient _).of_still.bind fun client => ?_
  refine (still_openRoute _ _).of_still.bind fun latest => ?_
  refine (still_liftVersion _).of_still.bind fun plan => ?_
  exact (keeps_send h _ _ _ _).bind fun _ => h.notice rfl

/-- A frame that allows for stacks and for packets is kept by every message. -/
theorem keeps_ofMessage (hstacks : F.AllowsStacks) (hpackets : F.AllowsPackets) (msg : Message) :
    Keeps F (ofMessage msg) := by
  cases msg with
  | createStack msg => exact keeps_createStack hstacks msg
  | addVersion msg => exact keeps_addVersion hstacks msg
  | disableVersion msg => exact keeps_disableVersion hstacks msg
  | launch msg => exact keeps_launch hpackets.toAllowsCalls msg
  | requestUpgrade msg => exact keeps_requestUpgrade hpackets msg
  | cancelUpgrade msg => exact keeps_cancelUpgrade hpackets msg

/-! ### Packets that arrive -/

theorem keeps_carryOut (h : F.AllowsRecords) (c : Chainlet) (plan : String) (height : Height)
    (t : Handshake.Transition) : Keeps F (carryOut c plan height t) := by
  cases t with
  | stay => exact Keeps.pure _
  | ignore reason =>
    exact (h.log _).bind fun _ => (h.emit rfl rfl).bind fun _ => Keeps.pure _
  | cancel upgrade reason =>
    exact (h.putChainlet _).bind fun _ => (h.emit rfl rfl).bind fun _ => Keeps.pure _
  | complete upgrade =>
    exact (h.putChainlet _).bind fun _ => (h.emit rfl rfl).bind fun _ => Keeps.pure _

theorem keeps_receive (h : F.AllowsRecords) (packet : Packet) : Keeps F (receive packet) := by
  refine (still_liftPacket _).of_still.bind fun data => ?_
  cases data with
  | create => exact Keeps.fail _
  | cancel => exact Keeps.fail _
  | confirm chainId height plan =>
    refine (still_liftFailure _).of_still.bind fun _ => ?_
    refine (still_verifiedChainlet _ _ _).of_still.bind fun c => ?_
    exact (still_step _ _).of_still.bind fun t => keeps_carryOut h _ _ _ _

theorem keeps_acknowledged (h : F.AllowsRecords) (packet : Packet) (answer : Bytes) :
    Keeps F (acknowledged packet answer) := by
  refine (still_liftPacket _).of_still.bind fun data => ?_
  refine (still_liftPacket _).of_still.bind fun ack => ?_
  refine (still_verifiedChainlet _ _ _).of_still.bind fun c => ?_
  refine still_context.of_still.bind fun _ => ?_
  cases data with
  | create => exact (still_step _ _).of_still.bind fun t => keeps_carryOut h _ _ _ _
  | cancel => exact (still_step _ _).of_still.bind fun t => keeps_carryOut h _ _ _ _
  | confirm => exact Keeps.fail _

theorem keeps_timedOut (h : F.AllowsRecords) (packet : Packet) : Keeps F (timedOut packet) := by
  refine (still_liftPacket _).of_still.bind fun data => ?_
  refine (still_verifiedChainlet _ _ _).of_still.bind fun c => ?_
  refine still_context.of_still.bind fun _ => ?_
  cases data with
  | create => exact (still_step _ _).of_still.bind fun t => keeps_carryOut h _ _ _ _
  | cancel => exact (still_step _ _).of_still.bind fun t => keeps_carryOut h _ _ _ _
  | confirm => exact Keeps.fail _

/-! ### The beginning of a block -/

theorem keeps_autoTarget (hlog : ∀ entry, Keeps F (log entry)) (t : VersionTree) (c : Chainlet) :
    Keeps F (autoTarget t c) := by
  rw [autoTarget]
  refine Keeps.ite (Keeps.pure _) ?_
  cases t.latestCompatible c.stack c.version with
  | ok latest => exact Keeps.pure _
  | error cause => exact (hlog _).bind fun _ => Keeps.pure _

theorem keeps_autoTargets (hlog : ∀ entry, Keeps F (log entry)) (t : VersionTree)
    (chainlets : List Chainlet) : Keeps F (autoTargets t chainlets) := by
  induction chainlets with
  | nil => exact Keeps.pure _
  | cons c rest ih =>
    exact (keeps_autoTarget hlog t c).bind fun _ => ih.bind fun _ => Keeps.pure _

theorem keeps_moveTo (h : F.AllowsCalls) (c : Chainlet) (target : String) :
    Keeps F (moveTo c target) := by
  refine (still_stack? _).of_still.bind fun stack? => ?_
  cases stack?.bind fun stack => stack.enabled? target with
  | none => exact Keeps.fail _
  | some version =>
    have hmove : Keeps F (do
        let c ← registerForVersion c version
        applyVersion c target true) :=
      (keeps_registerForVersion h _ _).bind fun _ => keeps_applyVersion h.toAllowsRecords _ _ _
    refine (h.atomic hmove).outcome.bind fun result => ?_
    cases result with
    | ok _ => exact Keeps.pure _
    | error failure => exact (h.log _).bind fun _ => Keeps.pure _

theorem keeps_moveAll (h : F.AllowsCalls) (planned : List (Chainlet × String)) :
    Keeps F (moveAll planned) := by
  induction planned with
  | nil => exact Keeps.pure _
  | cons move rest ih => exact (keeps_moveTo h _ _).bind fun _ => ih.bind fun _ => Keeps.pure _

theorem keeps_autoUpgrade (h : F.AllowsCalls) : Keeps F autoUpgrade := by
  refine still_view.of_still.bind fun _ => (still_liftStorage _).of_still.bind fun chainlets => ?_
  refine h.tree.bind fun t => ?_
  exact (keeps_autoTargets h.log _ _).bind fun _ => keeps_moveAll h _

theorem keeps_initConsumer (h : F.AllowsInits) (chainId : String) (consumer : ConsumerId) :
    Keeps F (initConsumer chainId consumer) := by
  refine (still_ask _).of_still.bind fun phase => Keeps.ite ?_ (Keeps.pure _)
  refine (still_ask _).of_still.bind fun channel? => ?_
  cases channel? with
  | none => exact Keeps.pure _
  | some channel =>
    refine (h.sendChanges _ _).bind fun sent => ?_
    cases sent with
    | error reason => exact h.log _
    | ok _ => exact (h.dropPendingInit _).bind fun _ => h.init rfl

theorem keeps_initConsumers (h : F.AllowsInits) : Keeps F initConsumers := by
  refine still_view.of_still.bind fun _ => (still_liftStorage _).of_still.bind fun pending => ?_
  exact Keeps.forM fun _ _ => keeps_initConsumer h _ _

/-- What is done at the beginning of a block before consumers have their turns. The height of the
block is returned. -/
def scan : Execution ω Height := do
  let params ← params
  let height := (← context).height
  if params.automaticUpgrades && height.isMultipleOf params.automaticUpgradeInterval then
    let _ ← autoUpgrade
  return height

/-- What the host does of its own at the beginning of a block. -/
def keepHouse (height : Height) : Execution ω Unit := do
  let time := (← context).time
  call fun parent world =>
    match parent.housekeeping? with
    | some housekeeping => housekeeping height time world
    | none => (.ok (), world)

/-- **The beginning of a block, in three parts.** -/
theorem beginBlock_eq : (beginBlock : Execution ω Unit) = (do
    let height ← scan
    initConsumers
    keepHouse height) := by
  rw [scan, bind_assoc]
  refine congrArg (params >>= ·) (funext fun params => ?_)
  rw [bind_assoc]
  refine congrArg (Execution.context >>= ·) (funext fun context => ?_)
  dsimp only
  split
  · rw [bind_assoc]
    rfl
  · rfl

theorem keeps_scan (h : F.AllowsCalls) : Keeps F scan := by
  refine still_params.of_still.bind fun params => still_context.of_still.bind fun _ => ?_
  exact Keeps.ite ((keeps_autoUpgrade h).bind fun _ => Keeps.pure _) (Keeps.pure _)

theorem outside_keepHouse (height : Height) :
    Keeps Frame.outside (keepHouse height : Execution ω Unit) :=
  still_context.of_still.bind fun _ => outside_call _

theorem keeps_keepHouse (h : F.AllowsInits) (height : Height) : Keeps F (keepHouse height) :=
  still_context.of_still.bind fun _ => (h.housekeeping _ _).call

theorem keeps_beginBlock (h : F.AllowsInits) : Keeps F beginBlock := by
  rw [beginBlock_eq]
  refine (keeps_scan h.toAllowsCalls).bind fun height => ?_
  exact (keeps_initConsumers h).bind fun _ => keeps_keepHouse h height

end Operation

end Chainlets
