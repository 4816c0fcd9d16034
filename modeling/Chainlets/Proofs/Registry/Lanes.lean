import Chainlets.Proofs.Registry.Scan

/-!
# What operations leave alone

An operation reads a record as a whole, changes a field of it, and writes it back as a whole; the
scan at the beginning of a block does so with records that it read before it changed others. So what
has to be shown of each operation is where its writes end up. A message about a stack writes stacks.
A message about a chainlet writes the record of this chainlet and whether it waits as a consumer.
The beginning of a block writes records of chainlets that take part in automatic upgrades, and who
waits.

A record is written under the chain id that it carries. That this is the chain id under which it was
read is where everything has to be stored under its own name.

## Main definitions

* `Registry.Confined` — apart from some records and some markers of consumers, nothing changes.
* `Registry.TakesPart` — a chainlet takes part in automatic upgrades now.

## Main results

* `Operation.confined_requestUpgrade`, `Operation.launch_launches`, … — **messages.**
* `Operation.confined_beginBlock` — **the beginning of a block.**
-/

namespace Chainlets

open Execution

/-- Apart from the records of some chainlets, and from whether some wait as consumers, the registry
is the same. -/
structure Registry.Confined (records markers : String → Prop) (reg reg' : Registry) : Prop where
  catalog : reg'.catalog = reg.catalog
  count : reg'.count = reg.count
  chainlets : ∀ {chainId}, ¬ records chainId →
    reg'.chainlets.get? chainId = reg.chainlets.get? chainId
  waiting : ∀ {chainId}, ¬ markers chainId → reg'.waiting.get? chainId = reg.waiting.get? chainId

namespace Registry.Confined

variable {records markers : String → Prop} {reg reg' reg'' : Registry}

theorem refl (reg : Registry) : reg.Confined records markers reg :=
  ⟨rfl, rfl, fun _ => rfl, fun _ => rfl⟩

theorem trans (h : reg.Confined records markers reg')
    (h' : reg'.Confined records markers reg'') : reg.Confined records markers reg'' where
  catalog := h'.catalog.trans h.catalog
  count := h'.count.trans h.count
  chainlets hne := (h'.chainlets hne).trans (h.chainlets hne)
  waiting hne := (h'.waiting hne).trans (h.waiting hne)

theorem putChainlet (reg : Registry) {c : Chainlet} (hc : records c.chainId) :
    reg.Confined records markers (reg.putChainlet c) where
  catalog := rfl
  count := rfl
  chainlets hne := OrderedMap.get?_insert_of_ne _ _ fun heq => hne (heq ▸ hc)
  waiting _ := rfl

theorem await (reg : Registry) {chainId : String} (hid : markers chainId)
    (consumer : ConsumerId) : reg.Confined records markers (reg.await chainId consumer) where
  catalog := rfl
  count := rfl
  chainlets _ := rfl
  waiting hne := OrderedMap.get?_insert_of_ne _ _ fun heq => hne (heq ▸ hid)

theorem await? (reg : Registry) {chainId : String} (hid : markers chainId)
    (consumer? : Option ConsumerId) :
    reg.Confined records markers (reg.await? chainId consumer?) := by
  cases consumer? with
  | none => exact .refl reg
  | some consumer => exact .await reg hid consumer

theorem init (reg : Registry) {chainId : String} (hid : markers chainId) :
    reg.Confined records markers (reg.init chainId) where
  catalog := rfl
  count := rfl
  chainlets _ := rfl
  waiting hne := OrderedMap.get?_erase_of_ne _ fun heq => hne (heq ▸ hid)

/-- A chainlet that joined is marked, and its record is not written yet. -/
theorem of_joined {c c' : Chainlet} (h : reg.Joined c c' reg') (hid : markers c.chainId) :
    reg.Confined records markers reg' := by
  cases h with
  | same => exact .refl reg
  | joined consumer alone => exact .await reg hid consumer

end Registry.Confined

variable {ω : Type} {reg : Registry}

namespace Operation

/-! ### Stacks -/

/-- What is left of an operation that has written a stack. -/
theorem ensures_putStack {stack : Stack} {rest : Execution ω Unit}
    (hrest : Keeps Frame.unwritten rest) :
    (putStack stack >>= fun _ => rest).Ensures reg
      fun _ reg' => reg' = { reg with catalog := reg'.catalog } :=
  (writes_putStack stack).bind fun _ => .of_unwritten hrest fun _ => rfl

theorem createStack_catalog (msg : CreateStack) :
    (createStack msg : Execution ω Unit).Ensures reg
      fun _ reg' => reg' = { reg with catalog := reg'.catalog } := by
  refine (Keeps.reads_of_still (still_requireStackManager _) reg).bind fun _ _ => ?_
  refine (reads_stack? msg.name).bind fun _ _ => Ensures.guarded fun _ => ?_
  refine (reads_liftFailure _).bind fun _ _ => ensures_putStack ?_
  exact (unwritten_changeTree _).bind fun _ => (unwritten_emit _).bind fun _ => unwritten_emit _

theorem addVersion_catalog (msg : AddVersion) :
    (addVersion msg : Execution ω Unit).Ensures reg
      fun _ reg' => reg' = { reg with catalog := reg'.catalog } := by
  refine (Keeps.reads_of_still (still_requireStackManager _) reg).bind fun _ _ => ?_
  refine (reads_stack msg.name).bind fun stack _ => (reads_liftFailure _).bind fun _ _ => ?_
  dsimp only
  split
  next => exact .fail _
  next => exact ensures_putStack ((unwritten_changeTree _).bind fun _ => unwritten_emit _)

theorem disableVersion_catalog (msg : DisableVersion) :
    (disableVersion msg : Execution ω Unit).Ensures reg
      fun _ reg' => reg' = { reg with catalog := reg'.catalog } := by
  refine (Keeps.reads_of_still (still_requireStackManager _) reg).bind fun _ _ => ?_
  refine (reads_stack msg.name).bind fun stack _ => ?_
  split
  next => exact .fail _
  next =>
    refine Ensures.ite (fun _ => ?_) fun _ => .pure rfl
    exact ensures_putStack ((unwritten_changeTree _).bind fun _ => unwritten_emit _)

/-! ### Chainlets -/

/-- A launch marks the chainlet if it is a consumer, writes its record where there was none, and
counts it. -/
theorem launch_launches (msg : Launch) :
    (launch msg : Execution ω Unit).Ensures reg fun _ reg' => ∃ (c : Chainlet) (count : UInt64),
      c.chainId = msg.chainId ∧ reg.chainlets.get? msg.chainId = none ∧
        reg' = ((reg.await? c.chainId c.consumer?).putChainlet c).withCount count := by
  have hlast (c : Chainlet) (count : UInt64) (event : Event) : (do
      putChainlet c
      putChainletCount count
      emit event : Execution ω Unit).Ensures (reg.await? c.chainId c.consumer?) fun _ reg' =>
        reg' = ((reg.await? c.chainId c.consumer?).putChainlet c).withCount count := by
    refine (writes_putChainlet c).bind fun _ => (writes_putChainletCount count).bind fun _ => ?_
    exact .of_unwritten (unwritten_emit event) fun _ => rfl
  refine reads_params.bind fun params _ => ?_
  refine (Keeps.reads_of_still (still_requireLauncher msg) reg).bind fun _ _ => ?_
  refine reads_view.bind fun o _ => (reads_liftStorage _).bind fun count _ => ?_
  refine Ensures.guarded fun _ => ?_
  refine (reads_chainlet? msg.chainId).bind fun c? hc? => Ensures.guarded fun hfree => ?_
  have hfree : reg.chainlets.get? msg.chainId = none := by simpa [hc?] using hfree
  refine (reads_stack msg.stack).bind fun stack _ => ?_
  refine (reads_enabledVersion msg.stack stack msg.version).bind fun version _ => ?_
  refine (Keeps.reads_of_still still_context reg).bind fun context _ => ?_
  dsimp only
  refine Ensures.ite (fun _ => ?_) fun _ => ?_
  · refine (Keeps.reads (Keeps.pure _) reg).bind fun denom? _ => ?_
    exact registerIf_ensures fun consumer? _ =>
      (hlast _ _ _).mono fun _ _ hreg' => ⟨_, _, rfl, hfree, hreg'⟩
  · refine (Keeps.reads ?_ reg).bind fun denom? _ => ?_
    · exact (unwritten_of_outside (outside_chargeLaunch _ _ _)).map _
    · exact registerIf_ensures fun consumer? _ =>
        (hlast _ _ _).mono fun _ _ hreg' => ⟨_, _, rfl, hfree, hreg'⟩

/-- A change of status leaves the record as it is, or writes the status into it. -/
theorem setStatus_sets (chainId : String) (status : Status) :
    (setStatus chainId status : Execution ω Bool).Ensures reg fun _ reg' => reg' = reg ∨
      ∃ c, reg.chainlets.get? chainId = some c ∧ reg' = reg.putChainlet { c with status } := by
  refine (reads_chainlet chainId).bind fun c hc => ?_
  refine Ensures.ite (fun _ => .pure (.inl rfl)) fun _ => ?_
  refine (writes_putChainlet _).bind fun _ => .of_unwritten ?_ fun _ => .inr ⟨c, hc, rfl⟩
  exact (unwritten_emit _).bind fun _ => Keeps.pure _

theorem confined_setStatus (hreg : reg.Filed) (chainId : String) (status : Status) :
    (setStatus chainId status : Execution ω Bool).Ensures reg
      fun _ => reg.Confined (· = chainId) (· = chainId) := by
  refine (setStatus_sets chainId status).mono ?_
  rintro _ _ (rfl | ⟨c, hc, rfl⟩)
  · exact .refl _
  · exact .putChainlet reg (hreg.chainlets chainId c hc)

/-- A request for an upgrade is granted if no upgrade is pending. -/
theorem confined_requestUpgrade (hreg : reg.Filed) (msg : RequestUpgrade) :
    (requestUpgrade msg : Execution ω Unit).Ensures reg
      fun _ reg' => reg.Confined (· = msg.chainId) (· = msg.chainId) reg' ∧
        ∃ c, reg.chainlets.get? msg.chainId = some c ∧ c.upgrade? = none := by
  refine reads_params.bind fun params _ => (reads_chainlet msg.chainId).bind fun c hc => ?_
  have hid : c.chainId = msg.chainId := hreg.chainlets _ _ hc
  refine (Keeps.reads_of_still (still_requireMaintainer _ _) reg).bind fun _ _ => ?_
  refine Ensures.guarded fun hidle => (reads_stack c.stack).bind fun stack _ => ?_
  have hidle : ∃ c, reg.chainlets.get? msg.chainId = some c ∧ c.upgrade? = none :=
    ⟨c, hc, by simpa using hidle⟩
  refine (reads_enabledVersion _ stack msg.version).bind fun target _ => Ensures.guarded fun _ => ?_
  refine (reads_liftVersion _).bind fun kind _ => Ensures.guarded fun _ => ?_
  refine Ensures.bind (registerForVersion_ensures c target) fun c' reg' ⟨hjoined, _⟩ => ?_
  have hmarked : reg.Confined (· = msg.chainId) (· = msg.chainId) reg' := .of_joined hjoined hid
  have hid' : c'.chainId = msg.chainId := hjoined.chainId_eq.trans hid
  cases kind with
  | compatible =>
    refine (writes_putChainlet _).bind fun _ => .of_unwritten (unwritten_emit _) fun _ => ?_
    exact ⟨hmarked.trans (.putChainlet reg' hid'), hidle⟩
  | breaking =>
    refine (reads_consumerClient c').bind fun client _ => ?_
    refine (Keeps.reads_of_still (still_openRoute _ _) reg').bind fun latest _ => ?_
    refine (reads_liftVersion _).bind fun _ _ => (reads_step c'.chainId _).bind fun _ _ => ?_
    refine (Keeps.reads_of_outside (outside_send _ _ _ _) reg').bind fun _ _ => ?_
    refine (writes_putChainlet _).bind fun _ => .of_unwritten (unwritten_emit _) fun _ => ?_
    exact ⟨hmarked.trans (.putChainlet reg' hid'), hidle⟩

end Operation

/-! ### The beginning of a block -/

/-- A chainlet takes part in automatic upgrades, and has no upgrade pending. -/
def Registry.TakesPart (reg : Registry) (chainId : String) : Prop :=
  ∃ c, reg.chainlets.get? chainId = some c ∧ c.autoUpgrade = true ∧ c.upgrade? = none

namespace Operation

/-- Only chainlets that opted into it and have no upgrade pending are moved. -/
theorem reads_autoTargets_optedIn (t : VersionTree) (chainlets : List Chainlet) :
    (autoTargets t chainlets : Execution ω _).Reads reg fun planned => ∀ move ∈ planned,
      move.1 ∈ chainlets ∧ move.1.autoUpgrade = true ∧ move.1.upgrade? = none := by
  induction chainlets with
  | nil => exact Reads.pure fun _ hmem => by cases hmem
  | cons c rest ih =>
    have htarget : (autoTarget t c : Execution ω _).Reads reg fun target? =>
        target?.isSome = true → c.autoUpgrade = true ∧ c.upgrade? = none := by
      rw [autoTarget]
      refine Ensures.ite (fun _ => Reads.pure fun h => by cases h) fun htakesPart => ?_
      have hoptedIn : c.autoUpgrade = true ∧ c.upgrade? = none := by simpa using htakesPart
      split
      next => exact Reads.pure fun _ => hoptedIn
      next =>
        refine (Keeps.reads_of_outside (outside_log _) reg).bind fun _ _ => ?_
        exact Reads.pure fun _ => hoptedIn
    refine htarget.bind fun target? htarget? => ih.bind fun more hmore => ?_
    have hrest : ∀ move ∈ more,
        move.1 ∈ c :: rest ∧ move.1.autoUpgrade = true ∧ move.1.upgrade? = none :=
      fun move hmove => ⟨List.mem_cons_of_mem _ (hmore move hmove).1, (hmore move hmove).2⟩
    cases target? with
    | none => exact Reads.pure hrest
    | some target =>
      refine Reads.pure fun move hmove => ?_
      rcases List.mem_cons.1 hmove with rfl | hmove
      · exact ⟨List.mem_cons_self, htarget? rfl⟩
      · exact hrest move hmove

variable {records : String → Prop}

/-- A move writes the record of its chainlet, whatever record of it was planned with, and may mark
it. A move that fails leaves nothing behind. -/
theorem confined_moveTo {c : Chainlet} (hc : records c.chainId) (target : String) :
    (moveTo c target : Execution ω Bool).Ensures reg
      fun _ => reg.Confined records fun _ => True := by
  refine (reads_stack? c.stack).bind fun stack? _ => ?_
  split
  next => exact .fail _
  next version _ =>
    have hmove : (do
        let c ← registerForVersion c version
        applyVersion c target true : Execution ω Unit).Ensures reg
          fun _ => reg.Confined records fun _ => True := by
      refine Ensures.bind (registerForVersion_ensures c version) fun c' reg' ⟨hjoined, _⟩ => ?_
      refine (writes_putChainlet _).bind fun _ => .of_unwritten (unwritten_emit _) fun _ => ?_
      have hc' : records c'.chainId := hjoined.chainId_eq ▸ hc
      exact (Registry.Confined.of_joined hjoined trivial).trans (.putChainlet reg' hc')
    refine Ensures.bind hmove.atomic fun result reg' hresult => ?_
    cases result with
    | ok _ => exact .pure hresult
    | error failure =>
      refine .of_unwritten ((unwritten_of_outside (outside_log _)).bind fun _ => Keeps.pure _) ?_
      exact fun _ => hresult ▸ .refl reg'

theorem confined_moveAll {planned : List (Chainlet × String)}
    (hplanned : ∀ move ∈ planned, records move.1.chainId) :
    (moveAll planned : Execution ω Nat).Ensures reg
      fun _ => reg.Confined records fun _ => True := by
  induction planned generalizing reg with
  | nil => exact .pure (.refl reg)
  | cons move rest ih =>
    refine Ensures.bind (confined_moveTo (hplanned move List.mem_cons_self) move.2)
      fun moved reg₁ hmoved => ?_
    refine Ensures.bind (ih fun other hother => hplanned other (List.mem_cons_of_mem _ hother))
      fun more reg₂ hmore => .pure (hmoved.trans hmore)

theorem confined_autoUpgrade (hreg : reg.Filed) :
    (autoUpgrade : Execution ω Nat).Ensures reg
      fun _ => reg.Confined reg.TakesPart fun _ => True := by
  refine reads_view.bind fun o ho => (reads_liftStorage _).bind fun chainlets hchainlets => ?_
  refine (Keeps.reads unwritten_tree reg).bind fun t _ => ?_
  refine (reads_autoTargets_optedIn t chainlets).bind fun planned hplanned => ?_
  refine confined_moveAll fun move hmove => ?_
  obtain ⟨hmem, hoptedIn⟩ := hplanned move hmove
  rw [ho.allChainlets] at hchainlets
  cases hchainlets
  obtain ⟨e, he, heq⟩ := List.mem_map.1 hmem
  have hheld := hreg.held_chainlet (OrderedMap.get?_eq_some_iff.2 he)
  exact ⟨move.1, heq ▸ hheld, hoptedIn⟩

/-- A consumer that is initialized does not wait any more, and one that is not waits on. -/
theorem confined_initConsumer (records : String → Prop) (chainId : String)
    (consumer : ConsumerId) :
    (initConsumer chainId consumer : Execution ω Unit).Ensures reg
      fun _ => reg.Confined records fun _ => True := by
  refine (Keeps.reads_of_still (still_ask _) reg).bind fun phase _ => ?_
  refine Ensures.ite (fun _ => ?_) fun _ => .pure (.refl reg)
  refine (Keeps.reads_of_still (still_ask _) reg).bind fun channel? _ => ?_
  cases channel? with
  | none => exact .pure (.refl reg)
  | some channel =>
    refine (Keeps.reads_of_outside (outside_attempt _) reg).bind fun sent _ => ?_
    cases sent with
    | error reason => exact .of_unwritten (unwritten_of_outside (outside_log _)) fun _ => .refl reg
    | ok _ =>
      refine (writes_dropPendingInit chainId).bind fun _ => ?_
      exact .of_unwritten (unwritten_emit _) fun _ => .init reg trivial

theorem confined_initConsumers_of (records : String → Prop)
    (pending : List (String × ConsumerId)) :
    (pending.forM fun (chainId, consumer) => initConsumer chainId consumer :
      Execution ω Unit).Ensures reg fun _ => reg.Confined records fun _ => True := by
  induction pending generalizing reg with
  | nil => exact .pure (.refl reg)
  | cons e rest ih =>
    refine Ensures.bind (confined_initConsumer records e.1 e.2) fun _ reg₁ hfirst => ?_
    exact ih.mono fun _ _ hrest => hfirst.trans hrest

theorem confined_initConsumers (records : String → Prop) :
    (initConsumers : Execution ω Unit).Ensures reg
      fun _ => reg.Confined records fun _ => True :=
  reads_view.bind fun _ _ => (reads_liftStorage _).bind fun pending _ =>
    confined_initConsumers_of records pending

theorem confined_scan (hreg : reg.Filed) :
    (scan : Execution ω Height).Ensures reg
      fun _ => reg.Confined reg.TakesPart fun _ => True := by
  refine reads_params.bind fun params _ => ?_
  refine (Keeps.reads_of_still still_context reg).bind fun context _ => ?_
  refine Ensures.ite (fun _ => ?_) fun _ => .pure (.refl reg)
  exact Ensures.bind (confined_autoUpgrade hreg) fun _ reg₁ hmoved => .pure hmoved

/-- **The beginning of a block writes records of chainlets that take part in automatic upgrades, and
who waits as a consumer.** -/
theorem confined_beginBlock (hreg : reg.Filed) :
    (beginBlock : Execution ω Unit).Ensures reg
      fun _ => reg.Confined reg.TakesPart fun _ => True := by
  rw [beginBlock_eq]
  refine Ensures.bind (confined_scan hreg) fun height reg₁ hmoved => ?_
  refine Ensures.bind (confined_initConsumers reg.TakesPart) fun _ reg₂ hinit => ?_
  exact .of_unwritten (unwritten_of_outside (outside_keepHouse height)) fun _ =>
    hmoved.trans hinit

end Operation

end Chainlets
