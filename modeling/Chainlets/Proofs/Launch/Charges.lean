import Chainlets.Proofs.Coherence.Effect
import Chainlets.Proofs.Execution.Calls
import Chainlets.Proofs.Execution.Failing

/-!
# What a launch is charged

The ways to pay for a launch are tried in order. Each takes two charges, a deposit and then a bill,
and the second may be refused after the first was taken. There are no refunds, so the deposit is
lost then, and the next way to pay is tried. Once one has paid, nothing else is charged; but the
chainlet may still not be launched, because its consumer is refused.

So a launch is billed once at most. For every deposit that it lost, a bill was refused; if none was,
then what it was charged is one deposit and one bill, in the same denomination.

## Main definitions

* `Call.charges` — the calls that are meant to charge; `Call.deposits`, `Call.bills`,
  `Call.refusedBills` — what came of them.
* `StackFees.Refused`, `StackFees.Tried` — the calls that are made for ways to pay.
* `Launch.Charged` — what a launch was charged by the ways to pay that it tried.
* `Launch.Stranded` — why a launch that was paid for fails.
* `Launch.Settled` — what a launch was charged, by how it ends.

## Main results

* `Operation.tryFees_tried` — **ways to pay are tried in order.**
* `Controller.launch_billed_once` — **a launch is billed once at most.**
-/

namespace Chainlets

open Execution

/-! ### Charges -/

namespace Call

/-- Whether a call is meant to charge for a chainlet. -/
def isCharge : Call → Bool
  | .openEscrow .. | .bill .. => true
  | _ => false

/-- The deposit that a call took. -/
def deposit? : Call → Option Coin
  | .openEscrow _ _ deposit (.ok ()) => some deposit
  | _ => none

/-- The amount that a call billed. -/
def billed? : Call → Option Coin
  | .bill amount _ _ (.ok ()) => some amount
  | _ => none

/-- The amount that a call failed to bill. -/
def refusedBill? : Call → Option Coin
  | .bill amount _ _ (.error _) => some amount
  | _ => none

/-- Whether a call, if it is meant to charge, charges one payer for one chainlet. -/
def IsFor (payer chainId : String) : Call → Prop
  | .openEscrow payer' chainId' _ _ => payer' = payer ∧ chainId' = chainId
  | .bill _ c _ _ => c.launcher = payer ∧ c.chainId = chainId
  | _ => True

/-- The calls that are meant to charge, in order. -/
def charges (calls : List Call) : List Call := calls.filter isCharge

/-- The deposits that were taken, in order. -/
def deposits (calls : List Call) : List Coin := calls.filterMap deposit?

/-- The amounts that were billed, in order. -/
def bills (calls : List Call) : List Coin := calls.filterMap billed?

/-- The amounts that could not be billed, in order. -/
def refusedBills (calls : List Call) : List Coin := calls.filterMap refusedBill?

theorem charges_append (calls more : List Call) :
    charges (calls ++ more) = charges calls ++ charges more := List.filter_append ..

theorem deposits_append (calls more : List Call) :
    deposits (calls ++ more) = deposits calls ++ deposits more := List.filterMap_append ..

theorem bills_append (calls more : List Call) :
    bills (calls ++ more) = bills calls ++ bills more := List.filterMap_append ..

theorem refusedBills_append (calls more : List Call) :
    refusedBills (calls ++ more) = refusedBills calls ++ refusedBills more :=
  List.filterMap_append ..

theorem charges_concat {call : Call} (h : call.isCharge = false) (calls : List Call) :
    charges (calls ++ [call]) = charges calls := by
  rw [charges_append, charges, charges, List.filter_cons_of_neg (by simp [h]), List.filter_nil,
    List.append_nil]

/-- Only calls that are meant to charge say anything about charges. -/
theorem uncharged {call : Call} (h : call.isCharge = false) :
    call.deposit? = none ∧ call.billed? = none ∧ call.refusedBill? = none := by
  cases call with
  | openEscrow _ _ _ _ => cases h
  | bill _ _ _ _ => cases h
  | _ => exact ⟨rfl, rfl, rfl⟩

theorem filterMap_charges {α : Type} {f : Call → Option α}
    (hf : ∀ call, call.isCharge = false → f call = none) (calls : List Call) :
    (charges calls).filterMap f = calls.filterMap f := by
  induction calls with
  | nil => rfl
  | cons call calls ih =>
    cases hcharge : call.isCharge with
    | true => rw [charges, List.filter_cons_of_pos hcharge, List.filterMap_cons,
        List.filterMap_cons, ← charges, ih]
    | false => rw [charges, List.filter_cons_of_neg (by simp [hcharge]), ← charges, ih,
        List.filterMap_cons_none (hf call hcharge)]

theorem deposits_charges (calls : List Call) : deposits (charges calls) = deposits calls :=
  filterMap_charges (fun _ h => (uncharged h).1) calls

theorem bills_charges (calls : List Call) : bills (charges calls) = bills calls :=
  filterMap_charges (fun _ h => (uncharged h).2.1) calls

theorem refusedBills_charges (calls : List Call) :
    refusedBills (charges calls) = refusedBills calls :=
  filterMap_charges (fun _ h => (uncharged h).2.2) calls

/-- So do all calls, if those that are meant to charge do. -/
theorem isFor_of_charges {payer chainId : String} {calls : List Call}
    (h : ∀ call ∈ charges calls, call.IsFor payer chainId) :
    ∀ call ∈ calls, call.IsFor payer chainId := by
  intro call hcall
  cases hcharge : call.isCharge with
  | true => exact h call (List.mem_filter.2 ⟨hcall, hcharge⟩)
  | false =>
    cases call with
    | openEscrow _ _ _ _ => cases hcharge
    | bill _ _ _ _ => cases hcharge
    | _ => trivial

end Call

/-- The calls that are made for one way to pay when it does not: none if the deposit cannot be
expressed, else up to the one that is refused. -/
inductive StackFees.Refused (c : Chainlet) (epochs : UInt64) (fees : StackFees) : List Call → Prop
  | overflow (unexpressed : fees.epochCoin.times? epochs = none) : Refused c epochs fees []
  | deposit {deposit : Coin} {reason : String}
      (expressed : fees.epochCoin.times? epochs = some deposit) :
    Refused c epochs fees [.openEscrow c.launcher c.chainId deposit (.error reason)]
  | bill {deposit : Coin} {reason : String}
      (expressed : fees.epochCoin.times? epochs = some deposit) :
    Refused c epochs fees [.openEscrow c.launcher c.chainId deposit (.ok ()),
      .bill fees.setupCoin c Operation.setupFeeMemo (.error reason)]

/-- The calls that are made for ways to pay that are tried in order, until one pays. -/
inductive StackFees.Tried (c : Chainlet) (epochs : UInt64) :
    List StackFees → Option StackFees → List Call → Prop
  | none : Tried c epochs [] none []
  | pays {fees : StackFees} {rest : List StackFees} {deposit : Coin}
      (expressed : fees.epochCoin.times? epochs = some deposit) :
    Tried c epochs (fees :: rest) (some fees)
      [.openEscrow c.launcher c.chainId deposit (.ok ()),
        .bill fees.setupCoin c Operation.setupFeeMemo (.ok ())]
  | fails {fees : StackFees} {rest : List StackFees} {paid? : Option StackFees}
      {calls more : List Call} (refused : fees.Refused c epochs calls)
      (tried : Tried c epochs rest paid? more) : Tried c epochs (fees :: rest) paid? (calls ++ more)

/-- What a launch was charged by the ways to pay that it tried: the deposits of those whose bill was
refused are lost, and one may have paid. -/
structure Launch.Charged (msg : Launch) (o : Overlay) (lost : List StackFees)
    (paid? : Option StackFees) (calls : List Call) : Prop where
  /-- Only a launch of a service chainlet is free. -/
  due : msg.isService = false
  /-- The stack lists the ways to pay in this order, and the deposits are for as many epochs as the
  parameters say. -/
  deposits : ∃ params stack, Readable.params o = .ok params ∧
    Readable.stack? o msg.stack = .ok (some stack) ∧
    (lost ++ paid?.toList).Sublist stack.fees ∧
    (Call.deposits calls).map some =
      (lost ++ paid?.toList).map (·.epochCoin.times? params.depositEpochs)
  bills : Call.bills calls = paid?.toList.map (·.setupCoin)
  refusedBills : Call.refusedBills calls = lost.map (·.setupCoin)
  /-- All of this is charged to the one who launches, for the chainlet that is launched. -/
  directed : ∀ call ∈ calls, call.IsFor msg.creator msg.chainId

/-- Why a launch that was paid for fails: its consumer is refused, or what it writes is too long to
be stored. -/
inductive Launch.Stranded (msg : Launch) (calls : List Call) : Failure → Prop
  | consumer {spawnTime : Time} {unbonding : Duration} {reason : String}
      (refused : .createConsumer msg.chainId spawnTime unbonding (.error reason) ∈ calls) :
    Stranded msg calls (.collaborator reason)
  | unencodable (entry : Entry) : Stranded msg calls (.storage (.unencodable entry))

/-! ### Ways to pay -/

namespace StackFees

variable {c : Chainlet} {epochs : UInt64} {options : List StackFees} {paid? : Option StackFees}
  {calls : List Call}

/-- A way to pay that does not pay bills nothing; if it takes a deposit, a bill is refused. -/
theorem Refused.accounts {fees : StackFees} (h : fees.Refused c epochs calls) :
    ∃ lost : List StackFees, lost.Sublist [fees] ∧
      (Call.deposits calls).map some = lost.map (·.epochCoin.times? epochs) ∧
      Call.bills calls = [] ∧ Call.refusedBills calls = lost.map (·.setupCoin) ∧
      ∀ call ∈ calls, call.IsFor c.launcher c.chainId := by
  cases h with
  | overflow _ => exact ⟨[], List.nil_sublist _, rfl, rfl, rfl, nofun⟩
  | deposit _ =>
    refine ⟨[], List.nil_sublist _, rfl, rfl, rfl, fun call hcall => ?_⟩
    obtain rfl := List.mem_singleton.1 hcall
    exact ⟨rfl, rfl⟩
  | bill hdeposit =>
    refine ⟨[fees], List.Sublist.refl _, ?_, rfl, rfl, fun call hcall => ?_⟩
    · rw [List.map_singleton, hdeposit]
      rfl
    · simp only [List.mem_cons, List.not_mem_nil, or_false] at hcall
      rcases hcall with rfl | rfl <;> exact ⟨rfl, rfl⟩

/-- What was charged for ways to pay, in all. -/
theorem Tried.accounts (h : Tried c epochs options paid? calls) :
    ∃ lost : List StackFees, (lost ++ paid?.toList).Sublist options ∧
      (Call.deposits calls).map some =
        (lost ++ paid?.toList).map (·.epochCoin.times? epochs) ∧
      Call.bills calls = paid?.toList.map (·.setupCoin) ∧
      Call.refusedBills calls = lost.map (·.setupCoin) ∧
      ∀ call ∈ calls, call.IsFor c.launcher c.chainId := by
  induction h with
  | none => exact ⟨[], List.Sublist.refl _, rfl, rfl, rfl, nofun⟩
  | @pays fees rest deposit hdeposit =>
    refine ⟨[], List.cons_sublist_cons.2 (List.nil_sublist _), ?_, rfl, rfl, fun call hcall => ?_⟩
    · rw [List.nil_append, Option.toList_some, List.map_singleton, hdeposit]
      rfl
    · simp only [List.mem_cons, List.not_mem_nil, or_false] at hcall
      rcases hcall with rfl | rfl <;> exact ⟨rfl, rfl⟩
  | @fails fees rest paid? calls more hrefused htried ih =>
    obtain ⟨lost, hlost, hdeposits, hbills, hrefusals, hours⟩ := hrefused.accounts
    obtain ⟨lost', hlost', hdeposits', hbills', hrefusals', hours'⟩ := ih
    refine ⟨lost ++ lost', ?_, ?_, ?_, ?_, fun call hcall => ?_⟩
    · rw [List.append_assoc]
      exact hlost.append hlost'
    · rw [Call.deposits_append, List.map_append, List.append_assoc, List.map_append, hdeposits,
        hdeposits']
    · rw [Call.bills_append, hbills, hbills', List.nil_append]
    · rw [Call.refusedBills_append, List.map_append, hrefusals, hrefusals']
    · exact (List.mem_append.1 hcall).elim (hours call) (hours' call)

/-- Everything that is called for ways to pay is meant to charge. -/
theorem Tried.charges_eq (h : Tried c epochs options paid? calls) : Call.charges calls = calls := by
  induction h with
  | none => rfl
  | pays _ => rfl
  | fails hrefused _ ih =>
    rw [Call.charges_append, ih]
    cases hrefused <;> rfl

end StackFees

section Record

variable {ω : Type} {store : Store} {parent : Parent ω} {cache : TreeCache}

/-- A call of a parent chain on record, and its answer. -/
theorem Execution.run_attempt_record {α : Type}
    {command : Parent (ω × List Call) → ω × List Call → Called (ω × List Call) α}
    {call : Except String α → Call} {asked : ω → Called ω α} {answer : Except String α} {w : ω}
    (hrecord : command parent.recorded = Call.record call asked)
    {m : Machine (ω × List Call)} (h : asked m.world.1 = (answer, w)) :
    (attempt command).run ⟨store, parent.recorded, cache⟩ m =
      (.ok answer, { m with world := (w, m.world.2 ++ [call answer]) }) := by
  rw [run_attempt, hrecord, Call.record, h]

namespace Operation

/-- One way to pay is charged: it pays, or it is refused. -/
theorem chargeFees_run (c : Chainlet) {epochs : UInt64} {fees : StackFees} {deposit : Coin}
    (hdeposit : fees.epochCoin.times? epochs = some deposit) (m : Machine (ω × List Call)) :
    ∃ result calls w,
      (chargeFees c fees deposit).run ⟨store, parent.recorded, cache⟩ m =
        (.ok result, { m with world := (w, m.world.2 ++ calls) }) ∧
      (result = .ok () ∧ calls = [.openEscrow c.launcher c.chainId deposit (.ok ()),
          .bill fees.setupCoin c setupFeeMemo (.ok ())] ∨
        (∃ reason, result = .error reason) ∧ fees.Refused c epochs calls) := by
  rw [chargeFees]
  cases hescrow : parent.openEscrow c.launcher c.chainId deposit m.world.1 with
  | mk opened w =>
    rw [run_bind_of_ok (run_attempt_record rfl hescrow)]
    cases opened with
    | error reason => exact ⟨_, _, w, rfl, .inr ⟨⟨reason, rfl⟩, .deposit hdeposit⟩⟩
    | ok _ =>
      cases hbill : parent.bill fees.setupCoin c setupFeeMemo w with
      | mk billed w' =>
        refine ⟨billed, [.openEscrow c.launcher c.chainId deposit (.ok ()),
          .bill fees.setupCoin c setupFeeMemo billed], w',
          (run_attempt_record rfl hbill).trans ?_, ?_⟩
        · rw [List.append_assoc]
          rfl
        · cases billed with
          | ok _ => exact .inl ⟨rfl, rfl⟩
          | error reason => exact .inr ⟨⟨reason, rfl⟩, .bill hdeposit⟩

/-- **Ways to pay are tried in order.** Nothing but calls of the parent chain and entries in the log
comes of it, and the result names the first that paid. -/
theorem tryFees_tried (c : Chainlet) (epochs : UInt64) (options : List StackFees)
    (m : Machine (ω × List Call)) :
    ∃ paid? calls m', (tryFees c epochs options).run ⟨store, parent.recorded, cache⟩ m =
        (.ok (paid?.map (·.denom)), m') ∧
      m'.context = m.context ∧ m'.world.2 = m.world.2 ++ calls ∧
        StackFees.Tried c epochs options paid? calls := by
  induction options generalizing m with
  | nil => exact ⟨none, [], m, rfl, rfl, (List.append_nil _).symm, .none⟩
  | cons fees rest ih =>
    rw [tryFees]
    cases hdeposit : fees.epochCoin.times? epochs with
    | none =>
      obtain ⟨paid?, calls, m', hrun, hcontext, hcalls, htried⟩ :=
        ih { m with log := m.log ++ [.depositOverflow fees.denom c.chainId] }
      exact ⟨paid?, calls, m', hrun, hcontext, hcalls, .fails (.overflow hdeposit) htried⟩
    | some deposit =>
      obtain ⟨result, calls, w, hcharge, ⟨rfl, rfl⟩ | ⟨⟨reason, rfl⟩, hrefused⟩⟩ :=
        @chargeFees_run ω store parent cache c epochs fees deposit hdeposit m
      · rw [run_bind_of_ok hcharge]
        exact ⟨some fees, _, _, rfl, rfl, rfl, .pays hdeposit⟩
      · rw [run_bind_of_ok hcharge]
        obtain ⟨paid?, more, m', hrun, hcontext, hcalls, htried⟩ :=
          ih { m with
            world := (w, m.world.2 ++ calls)
            log := m.log ++ [.feeFailed fees.denom c.chainId reason] }
        refine ⟨paid?, calls ++ more, m', hrun, hcontext, ?_, .fails hrefused htried⟩
        rw [hcalls, List.append_assoc]

end Operation

end Record

/-! ### Launches -/

/-- What a launch was charged, from the calls that were made for ways to pay. -/
theorem Launch.charged_of_tried {msg : Launch} {o : Overlay} {params : Params} {stack : Stack}
    {c : Chainlet} {paid? : Option StackFees} {tried calls : List Call}
    (hdue : msg.isService = false) (hparams : Readable.params o = .ok params)
    (hstack : Readable.stack? o msg.stack = .ok (some stack)) (hpayer : c.launcher = msg.creator)
    (hid : c.chainId = msg.chainId)
    (htried : StackFees.Tried c params.depositEpochs stack.fees paid? tried)
    (hcharges : Call.charges calls = tried) : ∃ lost, msg.Charged o lost paid? calls := by
  obtain ⟨lost, hlisted, hdeposits, hbills, hrefusals, hdirected⟩ := htried.accounts
  rw [← hcharges] at hdeposits hbills hrefusals hdirected
  rw [Call.deposits_charges] at hdeposits
  rw [Call.bills_charges] at hbills
  rw [Call.refusedBills_charges] at hrefusals
  rw [hpayer, hid] at hdirected
  exact ⟨lost, hdue, ⟨params, stack, hparams, hstack, hlisted, hdeposits⟩, hbills, hrefusals,
    Call.isFor_of_charges hdirected⟩

/-- A part of a launch that charges nothing, and that strands the launch if it fails. -/
def Execution.Unpriced {ω α : Type} (msg : Launch) (x : Execution (ω × List Call) α) : Prop :=
  ∀ (store : Store) (parent : Parent ω) (cache : TreeCache) (m : Machine (ω × List Call)),
    let after := x.run ⟨store, parent.recorded, cache⟩ m
    Call.charges after.2.world.2 = Call.charges m.world.2 ∧
      ∀ failure, after.1 = .error failure → msg.Stranded after.2.world.2 failure

namespace Execution.Unpriced

variable {ω α β : Type} {msg : Launch}

theorem pure (a : α) : Unpriced msg (Pure.pure a : Execution (ω × List Call) α) :=
  fun _ _ _ _ => ⟨rfl, nofun⟩

theorem bind {x : Execution (ω × List Call) α} {f : α → Execution (ω × List Call) β}
    (hx : Unpriced msg x) (hf : ∀ a, Unpriced msg (f a)) : Unpriced msg (x >>= f) := by
  intro store parent cache m
  have hx := hx store parent cache m
  rw [run_bind]
  cases hrun : x.run ⟨store, parent.recorded, cache⟩ m with
  | mk result m₁ =>
    rw [hrun] at hx
    cases result with
    | error failure =>
      refine ⟨hx.1, ?_⟩
      rintro _ ⟨⟩
      exact hx.2 failure rfl
    | ok a =>
      have hrest := hf a store parent cache m₁
      exact ⟨hrest.1.trans hx.1, hrest.2⟩

theorem map {x : Execution (ω × List Call) α} (hx : Unpriced msg x) (f : α → β) :
    Unpriced msg (f <$> x) := by
  rw [map_eq_pure_bind]
  exact hx.bind fun a => pure (f a)

theorem put [Stored.Format α] (entry : Entry) (a : α) :
    Unpriced msg (Execution.put entry a : Execution (ω × List Call) Unit) := by
  intro store parent cache m
  rw [Execution.put]
  split
  · exact ⟨rfl, fun _ h => by cases h⟩
  · refine ⟨rfl, ?_⟩
    rintro _ ⟨⟩
    exact .unencodable entry

theorem emit (event : Event) : Unpriced msg (Execution.emit event : Execution (ω × List Call) _) :=
  fun _ _ _ _ => ⟨rfl, nofun⟩

theorem ask (question : Parent (ω × List Call) → ω × List Call → α) :
    Unpriced msg (Execution.ask question) := fun _ _ _ _ => ⟨rfl, nofun⟩

/-- Registering the consumer of the chainlet is not charged for. -/
theorem registerConsumer (spawnTime : Time) (unbonding : Duration) :
    Unpriced msg (Operation.registerConsumer msg.chainId spawnTime unbonding :
      Execution (ω × List Call) _) := by
  refine bind (fun store parent cache m => ?_) fun consumer => (ask _).bind fun id => ?_
  · cases hcreate : parent.createConsumer msg.chainId spawnTime unbonding m.world.1 with
    | mk answer w =>
      rw [call, run_bind_of_ok (run_attempt_record rfl hcreate)]
      cases answer with
      | ok consumer => exact ⟨Call.charges_concat rfl _, nofun⟩
      | error reason =>
        refine ⟨Call.charges_concat rfl _, ?_⟩
        rintro _ ⟨⟩
        exact .consumer (List.mem_append_right _ (List.mem_singleton_self _))
  · refine bind (fun _ _ _ _ => ⟨Call.charges_concat rfl _, nofun⟩) fun _ => ?_
    refine bind (fun _ _ _ _ => ⟨Call.charges_concat rfl _, nofun⟩) fun _ => ?_
    exact (put _ _).bind fun _ => (emit _).bind fun _ => pure _

end Execution.Unpriced

namespace Execution

variable {ω α β : Type} {s : Surroundings ω} {m : Machine ω}

/-- Whenever an execution succeeds, an event is the last that was recorded. -/
def Announces (event : Event) (x : Execution ω α) : Prop :=
  ∀ s m a m', x.run s m = (.ok a, m') → m'.context.events.getLast? = some event

theorem Announces.bind {event : Event} (x : Execution ω α) {f : α → Execution ω β}
    (hf : ∀ a, (f a).Announces event) : (x >>= f).Announces event := by
  intro s m b m' hrun
  obtain ⟨a, m₁, -, hrest⟩ := bind_eq_ok.1 hrun
  exact hf a s m₁ b m' hrest

theorem announces_emit (event : Event) : (emit event : Execution ω Unit).Announces event := by
  rintro s m _ _ ⟨⟩
  exact List.getLast?_concat

/-- A run ends in some way. -/
def Yields (x : Execution ω α) (s : Surroundings ω) (m : Machine ω)
    (Q : Except Failure α → Machine ω → Prop) : Prop := Q (x.run s m).1 (x.run s m).2

/-- A part that only reads, and what comes after it if it succeeds. -/
theorem Yields.bind_still {x : Execution ω α} {f : α → Execution ω β}
    {Q : Except Failure β → Machine ω → Prop} (hx : Keeps Frame.still x)
    (herror : ∀ failure, Q (.error failure) m)
    (hok : ∀ a, x.run s m = (.ok a, m) → (f a).Yields s m Q) : (x >>= f).Yields s m Q := by
  rw [Yields, run_bind]
  cases hrun : x.run s m with
  | mk result m₁ =>
    obtain rfl : m₁ = m := hx.rel hrun
    cases result with
    | error failure => exact herror failure
    | ok a => exact hok a hrun

/-- A check, and what comes after it if it is passed. -/
theorem Yields.guarded {c : Prop} [Decidable c] {failure : Failure} {f : α → Execution ω β}
    {x : Execution ω β} {Q : Except Failure β → Machine ω → Prop}
    (herror : ∀ failure, Q (.error failure) m) (hx : ¬ c → x.Yields s m Q) :
    (if c then Execution.fail failure >>= f else x).Yields s m Q := by
  split
  · exact herror failure
  next hc => exact hx hc

end Execution

/-- What a launch was charged by the time it ended, given the calls and events that it left. -/
def Launch.Settled {α : Type} (msg : Launch) (o : Overlay) (calls : List Call)
    (events : List Event) : Except Failure α → Prop
  | .ok _ => ∃ feeDenom?,
    events.getLast? =
      some (.launchChainlet msg.chainId msg.stack msg.version msg.creator feeDenom?) ∧
    if msg.isService then feeDenom? = none ∧ Call.charges calls = []
    else ∃ lost fees, feeDenom? = some fees.denom ∧ msg.Charged o lost (some fees) calls
  | .error failure =>
    Call.charges calls = [] ∨ (∃ lost, msg.Charged o lost none calls) ∨
      ∃ lost fees, msg.Charged o lost (some fees) calls ∧ msg.Stranded calls failure

namespace Operation

variable {ω : Type} {store : Store} {parent : Parent ω} {cache : TreeCache}

/-- The rest of a launch, once it is paid for or free. -/
theorem launch_rest (msg : Launch) (record : Option ConsumerId → Chainlet) (count : UInt64)
    (isConsumer : Bool) (spawnTime : Time) (unbonding : Duration) (feeDenom? : Option String) :
    let last (consumer? : Option ConsumerId) : Execution (ω × List Call) Unit := do
      putChainlet (record consumer?)
      putChainletCount (count + 1)
      emit (.launchChainlet msg.chainId msg.stack msg.version msg.creator feeDenom?)
    let rest : Execution (ω × List Call) Unit :=
      if isConsumer = true then
        some <$> registerConsumer msg.chainId spawnTime unbonding >>= last
      else pure none >>= last
    rest.Unpriced msg ∧ rest.Announces
      (.launchChainlet msg.chainId msg.stack msg.version msg.creator feeDenom?) := by
  intro last rest
  have hunpriced (consumer? : Option ConsumerId) : (last consumer?).Unpriced msg :=
    (Unpriced.put _ _).bind fun _ => (Unpriced.put _ _).bind fun _ => .emit _
  have hannounces (consumer? : Option ConsumerId) : (last consumer?).Announces
      (.launchChainlet msg.chainId msg.stack msg.version msg.creator feeDenom?) :=
    .bind _ fun _ => .bind _ fun _ => announces_emit _
  cases isConsumer with
  | true =>
    exact ⟨((Unpriced.registerConsumer spawnTime unbonding).map some).bind hunpriced,
      .bind _ hannounces⟩
  | false => exact ⟨hunpriced none, hannounces none⟩

/-- The rest of a launch that is free. -/
theorem settled_of_free {msg : Launch} {x : Execution (ω × List Call) Unit}
    {m : Machine (ω × List Call)} (hx : x.Unpriced msg) (hservice : msg.isService = true)
    (hlast : x.Announces (.launchChainlet msg.chainId msg.stack msg.version msg.creator none))
    (hcharges : Call.charges m.world.2 = []) (o : Overlay) :
    x.Yields ⟨store, parent.recorded, cache⟩ m fun result m' =>
      msg.Settled o m'.world.2 m'.context.events result := by
  have hfree := (hx store parent cache m).1.trans hcharges
  rw [Yields]
  cases hrun : x.run ⟨store, parent.recorded, cache⟩ m with
  | mk result m' =>
    rw [hrun] at hfree
    cases result with
    | error failure => exact .inl hfree
    | ok _ => exact ⟨none, hlast _ _ _ _ hrun, by rw [if_pos hservice]; exact ⟨rfl, hfree⟩⟩

/-- The rest of a launch that was paid for. -/
theorem settled_of_paid {msg : Launch} {o : Overlay} {x : Execution (ω × List Call) Unit}
    {m : Machine (ω × List Call)} {fees : StackFees} (hx : x.Unpriced msg)
    (hlast : x.Announces
      (.launchChainlet msg.chainId msg.stack msg.version msg.creator (some fees.denom)))
    (hpaid : ∀ calls, Call.charges calls = Call.charges m.world.2 →
      ∃ lost, msg.Charged o lost (some fees) calls) :
    x.Yields ⟨store, parent.recorded, cache⟩ m fun result m' =>
      msg.Settled o m'.world.2 m'.context.events result := by
  obtain ⟨hcharges, hstranded⟩ := hx store parent cache m
  rw [Yields]
  cases hrun : x.run ⟨store, parent.recorded, cache⟩ m with
  | mk result m' =>
    rw [hrun] at hcharges hstranded
    obtain ⟨lost, hcharged⟩ := hpaid _ hcharges
    cases result with
    | error failure => exact .inr (.inr ⟨lost, fees, hcharged, hstranded failure rfl⟩)
    | ok _ =>
      refine ⟨some fees.denom, hlast _ _ _ _ hrun, ?_⟩
      rw [if_neg (by simp [hcharged.due])]
      exact ⟨lost, fees, rfl, hcharged⟩

/-- How a launch ends and what it was charged. -/
theorem launch_settled (msg : Launch) {m : Machine (ω × List Call)} (hnew : m.world.2 = []) :
    (launch msg).Yields ⟨store, parent.recorded, cache⟩ m fun result m' =>
      msg.Settled (Overlay.mk store m.context.updates) m'.world.2 m'.context.events result := by
  have herror (failure : Failure) : msg.Settled (Overlay.mk store m.context.updates) m.world.2
      m.context.events (.error failure : Except Failure Unit) := .inl (by rw [hnew]; rfl)
  refine .bind_still still_params herror fun params hparams => ?_
  refine .bind_still (still_requireLauncher msg) herror fun _ _ => ?_
  refine .bind_still still_view herror fun o _ => ?_
  refine .bind_still (still_liftStorage _) herror fun count _ => .guarded herror fun _ => ?_
  refine .bind_still (still_chainlet? _) herror fun _ _ => .guarded herror fun _ => ?_
  refine .bind_still (still_stack _) herror fun stack hstack => ?_
  refine .bind_still (still_enabledVersion _ _ _) herror fun version _ => ?_
  refine .bind_still still_context herror fun context _ => ?_
  dsimp only
  have hrest (feeDenom? : Option String) := @launch_rest ω msg (fun consumer? => {
    chainId := msg.chainId, name := msg.name, launcher := msg.creator
    maintainers := msg.maintainers, stack := msg.stack, version := msg.version, status := .online
    autoUpgrade := msg.autoUpgrade, isConsumer := version.isConsumer, consumer?
    spawnTime := context.time, isService := msg.isService, upgrade? := none }) count
    version.isConsumer context.time params.unbondingPeriod feeDenom?
  by_cases hservice : msg.isService = true
  · rw [if_pos hservice]
    exact settled_of_free (hrest none).1 hservice (hrest none).2 (by rw [hnew]; rfl) _
  · rw [if_neg hservice]
    have hparams := (params_eq_ok.1 hparams).1
    have hstack := (stack_eq_ok.1 hstack).1
    generalize hc : Chainlet.mk msg.chainId msg.name msg.creator msg.maintainers msg.stack
      msg.version .online msg.autoUpgrade version.isConsumer none context.time msg.isService
      none = c
    obtain ⟨paid?, tried, m', hrun, -, hcalls, htried⟩ :=
      @tryFees_tried ω store parent cache c params.depositEpochs stack.fees m
    have htried' : Call.charges m'.world.2 = tried := by
      rw [hcalls, hnew, List.nil_append, htried.charges_eq]
    have hcharged {calls : List Call} (hcalls : Call.charges calls = tried) :
        ∃ lost, msg.Charged (Overlay.mk store m.context.updates) lost paid? calls :=
      Launch.charged_of_tried (by simpa using hservice) hparams hstack (hc ▸ rfl) (hc ▸ rfl) htried
        hcalls
    cases paid? with
    | none =>
      have hfails : (some <$> chargeLaunch params stack c : Execution (ω × List Call) _).run
          ⟨store, parent.recorded, cache⟩ m =
            (.error (.billingFailed c.chainId stack.fees.length), m') := by
        rw [map_eq_pure_bind, chargeLaunch, bind_assoc, run_bind_of_ok hrun]
        rfl
      rw [Yields, run_bind_of_error hfails]
      exact .inr (.inl (hcharged htried'))
    | some fees =>
      have hpays : (some <$> chargeLaunch params stack c : Execution (ω × List Call) _).run
          ⟨store, parent.recorded, cache⟩ m = (.ok (some fees.denom), m') := by
        rw [map_eq_pure_bind, chargeLaunch, bind_assoc, run_bind_of_ok hrun]
        rfl
      rw [Yields, run_bind_of_ok hpays]
      exact settled_of_paid (hrest _).1 (hrest _).2 fun calls hcalls =>
        hcharged (hcalls.trans htried')

end Operation

namespace Controller

/-- **A launch is billed once at most, and what else it is charged is lost to refused bills.** If it
succeeds, it was paid for in the denomination that its event names, unless it is free. If it fails,
nothing was billed, or its consumer was refused after that, or what it writes could not be stored.
-/
theorem launch_billed_once {ω : Type} (store : Store) (parent : Parent ω) (msg : Launch)
    (context : Context) (cache : TreeCache) (w : ω) (log : List LogEntry) :
    let after :=
      perform store parent.recorded (.handle (.launch msg)) ⟨context, cache, (w, []), log⟩
    msg.Settled (Overlay.mk store context.updates) after.2.world.2 after.2.context.events
      after.1 := by
  intro after
  cases hcheck : msg.check with
  | error failure =>
    have hafter : after = (.error failure, ⟨context, cache, (w, []), log⟩) := by
      simp only [after, perform, handle, Message.check, hcheck]
      rfl
    rw [hafter]
    exact .inl rfl
  | ok _ =>
    have hafter {result live} (h : execute store parent.recorded (Operation.launch msg)
        ⟨context, cache, (w, []), log⟩ = (result, live)) :
        after = (result.map fun _ => .done, live) := by
      simp only [after, perform, handle, Message.check, hcheck, Operation.ofMessage, h]
    have hsettled := @Operation.launch_settled ω store parent cache msg ⟨context, (w, []), log⟩ rfl
    rw [Yields] at hsettled
    rcases @execute_cases _ _ store parent.recorded (Operation.launch msg)
        ⟨context, cache, (w, []), log⟩ with
      ⟨_, m', hrun, heq⟩ | ⟨failure, m', hrun, heq⟩
    · rw [hrun] at hsettled
      rw [hafter heq]
      exact hsettled
    · rw [hrun] at hsettled
      rw [hafter heq]
      rw [settle_world]
      exact hsettled

/-- A genesis state with a stack that can be paid for in two ways. -/
def offering : Genesis where
  params := {}
  catalog := [⟨"alpha", "", [⟨"upc", ⟨10, by decide⟩, ⟨1, by decide⟩⟩,
    ⟨"uatom", ⟨20, by decide⟩, ⟨2, by decide⟩⟩], [⟨"a", "1.0.0", "a", true, true⟩]⟩]
  chainlets := []

/-- A launch on that stack. -/
def launching : Launch :=
  ⟨"launcher", ["launcher"], "alpha", "1.0.0", "alpha_1-1", "first", false, false⟩

/-- What the genesis state leaves. -/
def offered : Live Host.World :=
  (perform ∅ (Host.World.parent true) (.importGenesis offering)
    ⟨.fresh ⟨1⟩ ⟨0⟩, .unloaded, .initial, []⟩).2

/-- What comes of the launch on a parent chain. -/
def launchedOn (w : Host.World) : Except Failure Response × Live (Host.World × List Call) :=
  perform ∅ (Host.World.parent true).recorded (.handle (.launch launching))
    ⟨offered.context, offered.cache, (w, []), []⟩

/-- A launch that succeeds is not always charged one deposit, and one that fails is not always
charged nothing. -/
theorem not_always_launched_once :
    (¬ ∀ (store : Store) (parent : Parent Host.World) (msg : Launch) (context : Context)
      (cache : TreeCache) (w : Host.World) (log : List LogEntry),
      let after :=
        perform store parent.recorded (.handle (.launch msg)) ⟨context, cache, (w, []), log⟩
      after.1.isOk = true → msg.isService = false →
        ∃ deposit, Call.deposits after.2.world.2 = [deposit]) ∧
    ¬ ∀ (store : Store) (parent : Parent Host.World) (msg : Launch) (context : Context)
      (cache : TreeCache) (w : Host.World) (log : List LogEntry),
      let after :=
        perform store parent.recorded (.handle (.launch msg)) ⟨context, cache, (w, []), log⟩
      after.1.isOk = false →
        Call.deposits after.2.world.2 = [] ∧ Call.bills after.2.world.2 = [] := by
  refine ⟨fun hall => ?_, fun hall => ?_⟩
  · -- The first way to pay can be deposited but not billed.
    let w : Host.World :=
      { Host.World.initial with outages := { (default : Host.Outages) with billing := ["upc"] } }
    have hok : (launchedOn w).1.isOk = true := by decide +kernel
    have hlost : Call.deposits (launchedOn w).2.world.2 =
        [⟨"upc", ⟨10, by decide⟩⟩, ⟨"uatom", ⟨20, by decide⟩⟩] := by decide +kernel
    have honce := hall ∅ (Host.World.parent true) launching offered.context offered.cache w []
    dsimp only at honce
    rw [← launchedOn, hlost] at honce
    obtain ⟨deposit, hdeposit⟩ := honce hok rfl
    cases hdeposit
  · -- The first way to pay works, but no consumer can be created.
    let w : Host.World :=
      { Host.World.initial with outages := { (default : Host.Outages) with consumers := true } }
    have hfails : (launchedOn w).1.isOk = false := by decide +kernel
    have hbilled : Call.bills (launchedOn w).2.world.2 = [⟨"upc", ⟨1, by decide⟩⟩] := by
      decide +kernel
    have hnothing := hall ∅ (Host.World.parent true) launching offered.context offered.cache w []
    dsimp only at hnothing
    rw [← launchedOn, hbilled] at hnothing
    cases (hnothing hfails).2

end Controller

end Chainlets
