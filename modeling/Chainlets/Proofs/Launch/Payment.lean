import Chainlets.Proofs.Launch.Charges

/-!
# Paying for a launch

What the ways to pay for a launch make of a parent chain depends on its answers, and these may
depend on what it was asked before. So the calls are told together with the states that they lead
through: a parent chain *serves* a series of calls if each of them is answered as it is recorded, in
the state that the calls before it left. A series that follows the order of the ways to pay and that
is served is the one that charging for a launch makes. There is exactly one for every state.

A launch is only charged for once every check is passed, and nothing is written before.

## Main definitions

* `Call.AnsweredBy`, `Parent.Serves` — the answers on record are those of a parent chain.
* `StackFees.PaidIn` — a way to pay was used up to the end.
* `Launch.Chargeable` — what a launch comes upon that is charged for.

## Main results

* `StackFees.exists_tried` — some series is served.
* `Operation.chargeLaunch_of_tried` — the series that is served is the one that is made.
* `Operation.launch_fees_in_order` — **ways to pay are tried in order, as far as needed.**
-/

namespace Chainlets

open Execution

/-! ### Deposits -/

namespace Coin

variable {coin deposit : Coin} {factor : UInt64}

/-- A coin cannot be taken a number of times if the amount would be too large. -/
theorem times?_eq_none_iff :
    coin.times? factor = none ↔ Amount.limit ≤ coin.amount.toNat * factor.toNat := by
  rw [times?, Option.map_eq_none_iff, Amount.mul?, Amount.ofNat?]
  simp

/-- Else the amount is the product. -/
theorem times?_eq_some_iff : coin.times? factor = some deposit ↔
    deposit.denom = coin.denom ∧ deposit.amount.toNat = coin.amount.toNat * factor.toNat := by
  rw [times?, Option.map_eq_some_iff]
  constructor
  · rintro ⟨amount, hamount, rfl⟩
    exact ⟨rfl, Amount.ofNat?_eq_some_iff.1 hamount⟩
  · rintro ⟨hdenom, hamount⟩
    refine ⟨deposit.amount, Amount.ofNat?_eq_some_iff.2 hamount, ?_⟩
    rw [← hdenom]

end Coin

/-! ### Answers -/

section Served

variable {ω : Type} {parent : Parent ω}

/-- A parent chain answers a call as it is recorded, and goes from one state to another. -/
def Call.AnsweredBy (parent : Parent ω) (w w' : ω) : Call → Prop
  | .openEscrow payer chainId deposit answer =>
    parent.openEscrow payer chainId deposit w = (answer, w')
  | .bill amount c memo answer => parent.bill amount c memo w = (answer, w')
  | .createConsumer chainId spawnTime unbonding answer =>
    parent.createConsumer chainId spawnTime unbonding w = (answer, w')
  | .advanceValidatorSetId => parent.advanceValidatorSetId w = w'
  | .queueChange consumer change => parent.queueChange consumer change w = w'
  | .sendChanges consumer channel answer => parent.sendChanges consumer channel w = (answer, w')
  | .sendPacket port channel timeoutHeight timeoutTime data answer =>
    parent.sendPacket port channel timeoutHeight timeoutTime data w = (answer, w')
  | .housekeeping height time answer =>
    ∃ work, parent.housekeeping? = some work ∧ work height time w = (answer, w')

/-- A parent chain answers calls as they are recorded, one after the other. -/
inductive Parent.Serves (parent : Parent ω) : ω → List Call → ω → Prop
  | nil (w : ω) : Serves parent w [] w
  | cons {w w₁ w' : ω} {call : Call} {calls : List Call} (answered : call.AnsweredBy parent w w₁)
      (rest : Serves parent w₁ calls w') : Serves parent w (call :: calls) w'

namespace StackFees

variable {c : Chainlet} {epochs : UInt64} {options : List StackFees} {paid? : Option StackFees}
  {fees : StackFees} {calls : List Call}

/-- A way to pay was used up to the end: the deposit was taken, and the setup fee was billed. -/
def PaidIn (c : Chainlet) (fees : StackFees) (calls : List Call) : Prop :=
  ∃ deposit, [.openEscrow c.launcher c.chainId deposit (.ok ()),
    .bill fees.setupCoin c Operation.setupFeeMemo (.ok ())] <:+: calls

/-- The way that pays is one of those that are tried, and nothing comes after it. -/
theorem Tried.suffix (h : Tried c epochs options paid? calls) (hpaid : paid? = some fees) :
    fees ∈ options ∧ ∃ deposit, fees.epochCoin.times? epochs = some deposit ∧
      [.openEscrow c.launcher c.chainId deposit (.ok ()),
        .bill fees.setupCoin c Operation.setupFeeMemo (.ok ())] <:+ calls := by
  induction h with
  | none => cases hpaid
  | pays hdeposit =>
    cases hpaid
    exact ⟨List.mem_cons_self, _, hdeposit, List.suffix_rfl⟩
  | fails _ _ ih =>
    obtain ⟨hmem, deposit, hdeposit, hsuffix⟩ := ih hpaid
    exact ⟨List.mem_cons_of_mem _ hmem, deposit, hdeposit,
      hsuffix.trans (List.suffix_append ..)⟩

/-- No way pays exactly if none was used up to the end. -/
theorem Tried.unpaid_iff (h : Tried c epochs options paid? calls) :
    paid? = Option.none ↔ ∀ fees : StackFees, ¬ fees.PaidIn c calls := by
  constructor
  · rintro rfl fees ⟨deposit, hinfix⟩
    obtain ⟨-, -, -, hbills, -⟩ := h.accounts
    have hbill : .bill fees.setupCoin c Operation.setupFeeMemo (.ok ()) ∈ calls :=
      hinfix.subset (List.mem_cons_of_mem _ List.mem_cons_self)
    have hbilled : fees.setupCoin ∈ Call.bills calls := List.mem_filterMap.2 ⟨_, hbill, rfl⟩
    rw [hbills] at hbilled
    cases hbilled
  · intro hunpaid
    cases paid? with
    | none => rfl
    | some fees =>
      obtain ⟨-, deposit, -, hsuffix⟩ := h.suffix rfl
      exact absurd ⟨deposit, hsuffix.isInfix⟩ (hunpaid fees)

/-- **Some series of calls for ways to pay is served.** -/
theorem exists_tried (parent : Parent ω) (c : Chainlet) (epochs : UInt64)
    (options : List StackFees) (w : ω) :
    ∃ paid? calls w', Tried c epochs options paid? calls ∧ parent.Serves w calls w' := by
  induction options generalizing w with
  | nil => exact ⟨none, [], w, .none, .nil w⟩
  | cons fees rest ih =>
    cases hdeposit : fees.epochCoin.times? epochs with
    | none =>
      obtain ⟨paid?, calls, w', htried, hserves⟩ := ih w
      exact ⟨paid?, _, w', .fails (.overflow hdeposit) htried, hserves⟩
    | some deposit =>
      cases hescrow : parent.openEscrow c.launcher c.chainId deposit w with
      | mk opened w₁ =>
        cases opened with
        | error reason =>
          obtain ⟨paid?, calls, w', htried, hserves⟩ := ih w₁
          exact ⟨paid?, _, w', .fails (.deposit hdeposit) htried, .cons hescrow hserves⟩
        | ok _ =>
          cases hbill : parent.bill fees.setupCoin c Operation.setupFeeMemo w₁ with
          | mk billed w₂ =>
            cases billed with
            | error reason =>
              obtain ⟨paid?, calls, w', htried, hserves⟩ := ih w₂
              exact ⟨paid?, _, w', .fails (.bill hdeposit) htried,
                .cons hescrow (.cons hbill hserves)⟩
            | ok _ =>
              exact ⟨some fees, _, w₂, .pays hdeposit, .cons hescrow (.cons hbill (.nil w₂))⟩

end StackFees

/-! ### Charging -/

namespace Operation

variable {store : Store} {cache : TreeCache} {c : Chainlet} {epochs : UInt64} {fees : StackFees}
  {deposit : Coin} {m : Machine (ω × List Call)} {w w' : ω}

/-- A way to pay whose deposit is refused. -/
theorem chargeFees_of_unopened {reason : String}
    (hescrow : parent.openEscrow c.launcher c.chainId deposit m.world.1 = (.error reason, w)) :
    (chargeFees c fees deposit).run ⟨store, parent.recorded, cache⟩ m =
      (.ok (.error reason), { m with world := (w, m.world.2 ++
        [.openEscrow c.launcher c.chainId deposit (.error reason)]) }) := by
  rw [chargeFees, run_bind_of_ok (run_attempt_record rfl hescrow)]
  rfl

/-- A way to pay whose deposit is taken. -/
theorem chargeFees_of_opened {billed : Except String Unit}
    (hescrow : parent.openEscrow c.launcher c.chainId deposit m.world.1 = (.ok (), w))
    (hbill : parent.bill fees.setupCoin c setupFeeMemo w = (billed, w')) :
    (chargeFees c fees deposit).run ⟨store, parent.recorded, cache⟩ m =
      (.ok billed, { m with world := (w', m.world.2 ++
        [.openEscrow c.launcher c.chainId deposit (.ok ()),
          .bill fees.setupCoin c setupFeeMemo billed]) }) := by
  rw [chargeFees, run_bind_of_ok (run_attempt_record rfl hescrow)]
  refine (run_attempt_record rfl hbill).trans ?_
  rw [List.append_assoc]
  rfl

/-- A series of calls for ways to pay that is served is the one that is made. -/
theorem tryFees_of_tried {options : List StackFees} {paid? : Option StackFees} {calls : List Call}
    (htried : StackFees.Tried c epochs options paid? calls)
    (hserves : parent.Serves m.world.1 calls w') :
    ∃ log, (tryFees c epochs options).run ⟨store, parent.recorded, cache⟩ m =
      (.ok (paid?.map (·.denom)), { m with world := (w', m.world.2 ++ calls), log }) := by
  -- along the ways to pay, for any state that the ways before have left
  induction htried generalizing m with
  | none =>
    cases hserves
    refine ⟨m.log, ?_⟩
    rw [List.append_nil]
    rfl
  | pays hdeposit =>
    obtain _ | ⟨hescrow, _ | ⟨hbill, _ | _⟩⟩ := hserves
    rw [tryFees]
    simp only [hdeposit]
    rw [run_bind_of_ok (chargeFees_of_opened hescrow hbill)]
    exact ⟨m.log, rfl⟩
  | @fails fees rest paid? calls more hrefused _ ih =>
    rw [tryFees]
    cases hrefused with
    | overflow hdeposit =>
      simp only [hdeposit]
      exact @ih { m with log := m.log ++ [.depositOverflow fees.denom c.chainId] } hserves
    | @deposit deposit reason hdeposit =>
      obtain _ | ⟨hescrow, hserves⟩ := hserves
      simp only [hdeposit]
      rw [run_bind_of_ok (chargeFees_of_unopened hescrow)]
      obtain ⟨log, hrun⟩ := @ih { m with
        world := (_, m.world.2 ++ [.openEscrow c.launcher c.chainId deposit (.error reason)])
        log := m.log ++ [.feeFailed fees.denom c.chainId reason] } hserves
      exact ⟨log, hrun.trans (by rw [List.append_assoc])⟩
    | @bill deposit reason hdeposit =>
      obtain _ | ⟨hescrow, _ | ⟨hbill, hserves⟩⟩ := hserves
      simp only [hdeposit]
      rw [run_bind_of_ok (chargeFees_of_opened hescrow hbill)]
      obtain ⟨log, hrun⟩ := @ih { m with
        world := (_, m.world.2 ++ [.openEscrow c.launcher c.chainId deposit (.ok ()),
          .bill fees.setupCoin c setupFeeMemo (.error reason)])
        log := m.log ++ [.feeFailed fees.denom c.chainId reason] } hserves
      exact ⟨log, hrun.trans (by rw [List.append_assoc])⟩

/-- So charging for a launch makes the series of calls that is served. -/
theorem chargeLaunch_of_tried {params : Params} {stack : Stack} {paid? : Option StackFees}
    {calls : List Call} (htried : StackFees.Tried c params.depositEpochs stack.fees paid? calls)
    (hserves : parent.Serves m.world.1 calls w') :
    ∃ log, (chargeLaunch params stack c).run ⟨store, parent.recorded, cache⟩ m =
      (paid?.elim (.error (.billingFailed c.chainId stack.fees.length)) fun fees =>
        .ok fees.denom, { m with world := (w', m.world.2 ++ calls), log }) := by
  obtain ⟨log, hrun⟩ := @tryFees_of_tried ω parent store cache c params.depositEpochs m w'
    stack.fees paid? calls htried hserves
  refine ⟨log, ?_⟩
  rw [chargeLaunch, run_bind_of_ok hrun]
  cases paid? <;> rfl

end Operation

/-! ### Launches that are charged for -/

/-- Who asks for a launch may ask for it: an admin for any, and others for chainlets with a
self-service chain id that are not service chainlets. -/
def Launch.AllowedTo (msg : Launch) (isAdmin : Bool) : Prop :=
  isAdmin = true ∨ msg.isService = false ∧ ChainId.isSelfService msg.chainId = true

/-- What a launch comes upon that is charged for: every check before has been passed. -/
structure Launch.Chargeable (msg : Launch) (o : Overlay) (isAdmin : Bool) (time : Time)
    (params : Params) (stack : Stack) (c : Chainlet) : Prop where
  /-- Only a launch of a service chainlet is free. -/
  due : msg.isService = false
  params_eq : Readable.params o = .ok params
  allowed : isAdmin = true ∨ ChainId.isSelfService msg.chainId = true
  room : ∃ count, Readable.chainletCount o = .ok count ∧ ¬ params.maxChainlets ≤ count
  free : Readable.chainlet? o msg.chainId = .ok none
  stack_eq : Readable.stack? o msg.stack = .ok (some stack)
  record : ∃ version, stack.enabled? msg.version = some version ∧ c = {
    chainId := msg.chainId, name := msg.name, launcher := msg.creator
    maintainers := msg.maintainers, stack := msg.stack, version := msg.version, status := .online
    autoUpgrade := msg.autoUpgrade, isConsumer := version.isConsumer, consumer? := none
    spawnTime := time, isService := msg.isService, upgrade? := none }

namespace Operation

variable {msg : Launch} {s : Surroundings ω} {m m' : Machine ω}

/-- Who may launch a chainlet. -/
theorem requireLauncher_eq_ok_iff :
    (requireLauncher msg : Execution ω Unit).run s m = (.ok (), m') ↔
      msg.AllowedTo (s.parent.isAdmin msg.creator m.world) ∧ m = m' := by
  rw [requireLauncher, run_bind_of_ok (run_ask _ s m), Launch.AllowedTo]
  cases s.parent.isAdmin msg.creator m.world with
  | true => simp
  | false => cases msg.isService <;> cases ChainId.isSelfService msg.chainId <;> simp

/-- Who may launch a chainlet that is not a service chainlet. -/
theorem requireLauncher_eq_ok (hdue : msg.isService = false) :
    (requireLauncher msg : Execution ω Unit).run s m = (.ok (), m') ↔
      (s.parent.isAdmin msg.creator m.world = true ∨ ChainId.isSelfService msg.chainId = true) ∧
        m = m' := by
  rw [requireLauncher_eq_ok_iff, Launch.AllowedTo]
  simp [hdue]

/-- **A launch that is not free fails without a trace, or it is charged for.** -/
theorem launch_chargeable (hdue : msg.isService = false) :
    (launch msg).Yields s m fun result m' => (∃ failure, (result, m') = (.error failure, m)) ∨
      ∃ params stack c, msg.Chargeable (Overlay.mk s.store m.context.updates)
        (s.parent.isAdmin msg.creator m.world) m.context.time params stack c := by
  have herror (failure : Failure) :
      (∃ other, ((.error failure : Except Failure Unit), m) = (.error other, m)) ∨
        ∃ params stack c, msg.Chargeable (Overlay.mk s.store m.context.updates)
          (s.parent.isAdmin msg.creator m.world) m.context.time params stack c :=
    .inl ⟨failure, rfl⟩
  refine .bind_still still_params herror fun params hparams => ?_
  refine .bind_still (still_requireLauncher msg) herror fun _ hlauncher => ?_
  refine .bind_still still_view herror fun o ho => ?_
  obtain rfl : Overlay.mk s.store m.context.updates = o := Except.ok.inj (congrArg Prod.fst ho)
  refine .bind_still (still_liftStorage _) herror fun count hcount => ?_
  refine .guarded herror fun hroom => ?_
  refine .bind_still (still_chainlet? _) herror fun c? hc => .guarded herror fun hfree => ?_
  refine .bind_still (still_stack _) herror fun stack hstack => ?_
  refine .bind_still (still_enabledVersion _ _ _) herror fun version hversion => ?_
  refine .inr ⟨params, stack, _, {
    due := hdue
    params_eq := (params_eq_ok.1 hparams).1
    allowed := ((requireLauncher_eq_ok hdue).1 hlauncher).1
    room := ⟨count, (liftStorage_eq_ok.1 hcount).1, hroom⟩
    free := ?_
    stack_eq := (stack_eq_ok.1 hstack).1
    record := ⟨version, (enabledVersion_eq_ok.1 hversion).1, rfl⟩ }⟩
  rw [(chainlet?_eq_ok.1 hc).1]
  cases c? with
  | none => rfl
  | some c => exact absurd rfl hfree

/-- If charging for it fails, so does the launch. -/
theorem launch_of_uncharged {params : Params} {stack : Stack} {c : Chainlet}
    (h : msg.Chargeable (Overlay.mk s.store m.context.updates)
      (s.parent.isAdmin msg.creator m.world) m.context.time params stack c)
    {failure : Failure} (hcharge : (chargeLaunch params stack c).run s m = (.error failure, m')) :
    (launch msg).run s m = (.error failure, m') := by
  obtain ⟨count, hcount, hroom⟩ := h.room
  obtain ⟨version, hversion, rfl⟩ := h.record
  rw [launch, run_bind_of_ok (params_eq_ok.2 ⟨h.params_eq, rfl⟩),
    run_bind_of_ok ((requireLauncher_eq_ok h.due).2 ⟨h.allowed, rfl⟩),
    run_bind_of_ok (run_view s m), run_bind_of_ok (liftStorage_eq_ok.2 ⟨hcount, rfl⟩),
    if_neg hroom, run_bind_of_ok (chainlet?_eq_ok.2 ⟨h.free, rfl⟩), if_neg (by decide),
    run_bind_of_ok (stack_eq_ok.2 ⟨h.stack_eq, rfl⟩),
    run_bind_of_ok (enabledVersion_eq_ok.2 ⟨hversion, rfl⟩), run_bind_of_ok (run_context s m)]
  dsimp only
  rw [if_neg (by simp [h.due])]
  refine run_bind_of_error ?_
  rw [map_eq_pure_bind]
  exact run_bind_of_error hcharge

/-- **Ways to pay are tried in order, and only as far as needed.** A deposit that would be too large
is not tried; any other is exact. Whatever the parent chain answers, charging for a launch makes one
series of calls only, which follows the order of the ways to pay up to the first that was used up to
the end, and is answered along the states that it leads through. It returns the denomination of that
way, or fails with the number of ways if there is none. A launch that is not free either fails
before it is charged for, without a trace, or passes every check; then it fails if charging for it
does, and has written something only if that returned a denomination. -/
theorem launch_fees_in_order (store : Store) (parent : Parent ω) (cache : TreeCache)
    (m : Machine (ω × List Call)) :
    (∀ (coin : Coin) (epochs : UInt64),
      (coin.times? epochs = none ↔ Amount.limit ≤ coin.amount.toNat * epochs.toNat) ∧
      ∀ deposit, coin.times? epochs = some deposit ↔
        deposit.denom = coin.denom ∧
          deposit.amount.toNat = coin.amount.toNat * epochs.toNat) ∧
    (∀ (params : Params) (stack : Stack) (c : Chainlet), ∃ paid? calls w' log,
      (chargeLaunch params stack c).run ⟨store, parent.recorded, cache⟩ m =
        (paid?.elim (.error (.billingFailed c.chainId stack.fees.length)) fun fees =>
          .ok fees.denom, { m with world := (w', m.world.2 ++ calls), log }) ∧
      StackFees.Tried c params.depositEpochs stack.fees paid? calls ∧
      parent.Serves m.world.1 calls w' ∧
      (∀ other? calls' w'', StackFees.Tried c params.depositEpochs stack.fees other? calls' →
        parent.Serves m.world.1 calls' w'' →
          other?.map (·.denom) = paid?.map (·.denom) ∧ calls' = calls ∧ w'' = w') ∧
      (paid? = none ↔ ∀ fees : StackFees, ¬ fees.PaidIn c calls)) ∧
    ∀ msg : Launch, msg.isService = false →
      let after := (launch msg).run ⟨store, parent.recorded, cache⟩ m
      let due := msg.Chargeable (Overlay.mk store m.context.updates)
        (parent.isAdmin msg.creator m.world.1) m.context.time
      ((∃ failure, after = (.error failure, m)) ∨ ∃ params stack c, due params stack c) ∧
      ∀ params stack c, due params stack c →
        let charged := (chargeLaunch params stack c).run ⟨store, parent.recorded, cache⟩ m
        (∀ failure m', charged = (.error failure, m') → after = (.error failure, m')) ∧
          (after.2.context ≠ m.context → ∃ denom m', charged = (.ok denom, m')) := by
  refine ⟨fun coin epochs => ⟨Coin.times?_eq_none_iff, fun deposit => Coin.times?_eq_some_iff⟩,
    fun params stack c => ?_, fun msg hdue => ⟨launch_chargeable hdue,
      fun params stack c hc => ⟨fun _ _ => launch_of_uncharged hc, fun hwrites => ?_⟩⟩⟩
  · obtain ⟨paid?, calls, w', htried, hserves⟩ :=
      StackFees.exists_tried parent c params.depositEpochs stack.fees m.world.1
    obtain ⟨log, hrun⟩ := @chargeLaunch_of_tried ω parent store cache c m w' params stack paid?
      calls htried hserves
    refine ⟨paid?, calls, w', log, hrun, htried, hserves, ?_, htried.unpaid_iff⟩
    intro other? calls' w'' htried' hserves'
    obtain ⟨log', hrun'⟩ := @tryFees_of_tried ω parent store cache c params.depositEpochs m w''
      stack.fees other? calls' htried' hserves'
    obtain ⟨log'', hrun''⟩ := @tryFees_of_tried ω parent store cache c params.depositEpochs m w'
      stack.fees paid? calls htried hserves
    have hsame := hrun'.symm.trans hrun''
    have hworld : (w'', m.world.2 ++ calls') = (w', m.world.2 ++ calls) :=
      congrArg (fun after => after.2.world) hsame
    exact ⟨Except.ok.inj (congrArg Prod.fst hsame),
      List.append_cancel_left (congrArg Prod.snd hworld), congrArg Prod.fst hworld⟩
  · cases hcharge : (chargeLaunch params stack c).run ⟨store, parent.recorded, cache⟩ m with
    | mk result m' =>
      cases result with
      | ok denom => exact ⟨denom, m', rfl⟩
      | error failure =>
        have hcontext : m'.context = m.context := (outside_chargeLaunch params stack c).rel hcharge
        rw [launch_of_uncharged hc hcharge] at hwrites
        exact absurd hcontext hwrites

end Operation

end Served

end Chainlets
