import Chainlets.Proofs.Registry.AutoUpgrade

/-!
# Requests that are granted

A request for an upgrade, or to give one up, is granted if the one who asks is a maintainer and the
chainlet is in the right state. A chainlet that is not a consumer joins as one if the version it is
to run needs that. Then a compatible version takes effect at once; for a breaking one an open
channel has to lead to the chainlet, a packet goes out, and the upgrade is pending.

Everything before the chainlet joins only reads, and so do the checks between that and the packet.

## Main definitions

* `RequestUpgrade.Admitted` — what a request for an upgrade comes upon that passes the checks.
* `Parent.Enlists` — whether a chainlet joins, and what that leaves of the parent chain.
* `RequestUpgrade.Concludes` — how a request ends that has passed the checks.
* `RequestUpgrade.Granted`, `CancelUpgrade.Granted` — what a request comes upon about a consumer.

## Main results

* `Operation.requestUpgrade_cases`, `Operation.requestUpgrade_of_concludes` — **how a request for an
  upgrade succeeds.**
* `Operation.requestUpgrade_of_granted`, `Operation.cancelUpgrade_of_granted` — **requests that pass
  every check succeed**, and what they leave.
-/

namespace Chainlets

open Execution

/-- What a request for an upgrade comes upon that passes the checks of the chainlet and of the
version. -/
structure RequestUpgrade.Admitted (msg : RequestUpgrade) (o : Overlay) (params : Params)
    (c : Chainlet) (target : StackVersion) (kind : Upgrade.Kind) : Prop where
  params_eq : Readable.params o = .ok params
  found : Readable.chainlet? o msg.chainId = .ok (some c)
  maintained : c.isMaintainer msg.creator = true
  idle : c.upgrade? = none
  offered : ∃ stack, Readable.stack? o c.stack = .ok (some stack) ∧
    stack.enabled? msg.version = some target
  other : target.version ≠ c.version
  takes : Upgrade.kind c.version target.version = .ok kind
  /-- A breaking upgrade is negotiated with a consumer. -/
  capable : kind = .breaking → c.isConsumer = true ∨ target.isConsumer = true

/-- What becomes of a chainlet that is to run a version, and of the parent chain: it joins as a
consumer if it is not one and the version needs that, and else it stays what it is. -/
inductive Parent.Enlists {ω : Type} (parent : Parent ω) (params : Params) (time : Time)
    (c : Chainlet) (target : StackVersion) (w : ω) : Option ConsumerId → ω → Prop
  | stays (ready : c.isConsumer = true ∨ target.isConsumer = false) :
      Enlists parent params time c target w none w
  | joins {consumer : ConsumerId} {w' : ω} (alone : c.isConsumer = false)
      (needed : target.isConsumer = true)
      (enlisted : parent.enlist (some params) time c.chainId w = (some consumer, w')) :
      Enlists parent params time c target w (some consumer) w'

/-- The context after a chainlet has joined as a consumer, if it has. -/
def Context.enlist (context : Context) (chainId : String) : Option ConsumerId → Context
  | none => context
  | some consumer => { context with
      updates := context.updates.insert (Entry.pendingInit chainId).key (Stored.encode consumer)
      events := context.events ++ [.registerConsumer chainId consumer] }

@[simp]
theorem Context.time_enlist (context : Context) (chainId : String)
    (consumer? : Option ConsumerId) : (context.enlist chainId consumer?).time = context.time := by
  cases consumer? <;> rfl

/-- How a request for an upgrade ends that has passed the checks, for the chainlet as it is then: a
compatible version takes effect at once, and a breaking one is pending once a packet is sent. -/
inductive RequestUpgrade.Concludes {ω : Type} (msg : RequestUpgrade) (parent : Parent ω)
    (params : Params) (c : Chainlet) (target : StackVersion) (m : Machine ω) :
    Upgrade.Kind → Machine ω → Prop
  | moves {moved : Chainlet} (moved_eq : moved = { c with version := target.version })
      (fits : Stored.fits moved = true) :
      Concludes msg parent params c target m .compatible { m with context := { m.context with
        updates := m.context.updates.insert (Entry.chainlet c.chainId).key (Stored.encode moved)
        events := m.context.events ++
          [.upgradeChainlet c.chainId c.version target.version false] } }
  | schedules {latest height : Height} {plan : String} {data : PacketData} {sequence : Sequence}
      {w : ω} {scheduled : Chainlet}
      (reachable : c.ReachableOver parent m.world msg.channel latest)
      (named : Upgrade.planName c.version target.version = .ok plan)
      (height_eq : height = latest.add (Word.add params.minUpgradeHeightDelta msg.heightDelta))
      (data_eq : data = .create c.chainId plan height.number target.image)
      (sent : parent.sendPacket Channel.port msg.channel (latest.add params.timeoutHeightDelta)
        (m.context.time.add params.timeout) data.encode m.world = (.ok sequence, w))
      (scheduled_eq : scheduled =
        { c with upgrade? := some ⟨target.version, height, msg.channel⟩ })
      (fits : Stored.fits scheduled = true) :
      Concludes msg parent params c target m .breaking { m with
        context := { m.context with
          updates := m.context.updates.insert (Entry.chainlet c.chainId).key
            (Stored.encode scheduled)
          events := m.context.events ++ [.scheduleUpgrade c.chainId plan target.version height
            msg.channel sequence (.of data.encode)] }
        world := w }

/-- What a request for a breaking upgrade of a consumer comes upon, if it is granted. -/
structure RequestUpgrade.Granted {ω : Type} (msg : RequestUpgrade) (parent : Parent ω) (world : ω)
    (o : Overlay) (params : Params) (c : Chainlet) (target : StackVersion) (latest : Height)
    (plan : String) : Prop where
  params : Readable.params o = .ok params
  found : Readable.chainlet? o msg.chainId = .ok (some c)
  maintained : c.isMaintainer msg.creator = true
  idle : c.upgrade? = none
  offered : ∃ stack, Readable.stack? o c.stack = .ok (some stack) ∧
    stack.enabled? msg.version = some target
  other : target.version ≠ c.version
  breaking : Upgrade.kind c.version target.version = .ok .breaking
  consumer : c.isConsumer = true
  reachable : c.ReachableOver parent world msg.channel latest
  named : Upgrade.planName c.version target.version = .ok plan

/-- What a request to give an upgrade up comes upon, if it is granted. -/
structure CancelUpgrade.Granted {ω : Type} (msg : CancelUpgrade) (parent : Parent ω) (world : ω)
    (o : Overlay) (params : Params) (c : Chainlet) (upgrade : PendingUpgrade) (latest : Height)
    (plan : String) : Prop where
  params : Readable.params o = .ok params
  found : Readable.chainlet? o msg.chainId = .ok (some c)
  maintained : c.isMaintainer msg.creator = true
  pending : c.upgrade? = some upgrade
  reachable : c.ReachableOver parent world upgrade.channel latest
  named : Upgrade.planName c.version upgrade.targetVersion = .ok plan

namespace Operation

variable {ω : Type} {s : Surroundings ω} {m m' : Machine ω}

theorem requireMaintainer_eq_ok {c : Chainlet} {address : String} :
    (requireMaintainer c address : Execution ω Unit).run s m = (.ok (), m') ↔
      c.isMaintainer address = true ∧ m = m' := by
  rw [requireMaintainer]
  split
  next h => simp [h]
  next h => simp [h]

/-- A call of the parent chain succeeds when the parent chain does. -/
theorem call_eq_ok {α : Type} {command : Parent ω → ω → Called ω α} {a : α} :
    (call command).run s m = (.ok a, m') ↔
      ∃ w, command s.parent m.world = (.ok a, w) ∧ m' = { m with world := w } := by
  rw [call, run_bind_of_ok (run_attempt ..)]
  cases command s.parent m.world with
  | mk answer w => cases answer <;> simp [eq_comm]

/-- A packet was sent when the parent chain sent it. -/
theorem send_eq_ok {params : Params} {latest : Height} {channel : String} {data : PacketData}
    {receipt : Sequence × Commitment} :
    (send params latest channel data : Execution ω _).run s m = (.ok receipt, m') ↔
      ∃ sequence w, receipt = (sequence, .of data.encode) ∧
        s.parent.sendPacket Channel.port channel (latest.add params.timeoutHeightDelta)
          (m.context.time.add params.timeout) data.encode m.world = (.ok sequence, w) ∧
        m' = { m with world := w } := by
  constructor
  · intro h
    obtain ⟨_, _, hcontext, h⟩ := bind_eq_ok.1 h
    obtain ⟨rfl, rfl⟩ := context_eq_ok.1 hcontext
    obtain ⟨sequence, _, hcall, h⟩ := bind_eq_ok.1 h
    obtain ⟨w, hsent, rfl⟩ := call_eq_ok.1 hcall
    obtain ⟨rfl, rfl⟩ := pure_eq_ok.1 h
    exact ⟨sequence, w, rfl, hsent, rfl⟩
  · rintro ⟨sequence, w, rfl, hsent, rfl⟩
    refine bind_eq_ok.2 ⟨_, m, context_eq_ok.2 ⟨rfl, rfl⟩, ?_⟩
    exact bind_eq_ok.2 ⟨sequence, _, call_eq_ok.2 ⟨w, hsent, rfl⟩, rfl⟩

/-- A chainlet is registered for a version as the parent chain enlists it. -/
theorem registerForVersion_enlists {params : Params}
    (hparams : Readable.params (Overlay.mk s.store m.context.updates) = .ok params)
    {c c' : Chainlet} {target : StackVersion} :
    (registerForVersion c target).run s m = (.ok c', m') ↔
      ∃ consumer? w, s.parent.Enlists params m.context.time c target m.world consumer? w ∧
        c' = c.join? consumer? ∧
        m' = { m with world := w, context := m.context.enlist c.chainId consumer? } := by
  by_cases hready : (c.isConsumer || !target.isConsumer) = true
  · have hstays : c.isConsumer = true ∨ target.isConsumer = false := by simpa using hready
    rw [registerForVersion, if_pos hready, pure_eq_ok]
    constructor
    · rintro ⟨rfl, rfl⟩
      exact ⟨none, m.world, .stays hstays, rfl, rfl⟩
    · rintro ⟨consumer?, w, henlists, rfl, rfl⟩
      cases henlists with
      | stays _ => exact ⟨rfl, rfl⟩
      | joins halone hneeded _ => simp [halone, hneeded] at hready
  · have hjoins : c.isConsumer = false ∧ target.isConsumer = true := by simpa using hready
    rcases run_registerForVersion_of_params hparams hready with
      ⟨consumer, henlisted, -, hrun⟩ | ⟨hrefused, failure, hrun⟩
    · rw [hrun]
      constructor
      · rintro ⟨⟩
        exact ⟨some consumer, _, .joins hjoins.1 hjoins.2 (Prod.ext henlisted rfl), rfl, rfl⟩
      · rintro ⟨consumer?, w, henlists, rfl, rfl⟩
        cases henlists with
        | stays hstays => simp [hjoins] at hstays
        | joins _ _ henlisted' =>
          rw [henlisted'] at henlisted ⊢
          cases henlisted
          rfl
    · rw [hrun]
      refine iff_of_false (by simp) ?_
      rintro ⟨consumer?, w, henlists, rfl, rfl⟩
      cases henlists with
      | stays hstays => simp [hjoins] at hstays
      | joins _ _ henlisted =>
        rw [henlisted] at hrefused
        cases hrefused

/-- A chainlet is moved to a version if its record can be stored. -/
theorem applyVersion_eq_ok {c : Chainlet} {version : String} {automatic : Bool} :
    (applyVersion c version automatic : Execution ω Unit).run s m = (.ok (), m') ↔
      Stored.fits { c with version } = true ∧ m' = { m with context := { m.context with
        updates := m.context.updates.insert (Entry.chainlet c.chainId).key
          (Stored.encode { c with version })
        events := m.context.events ++
          [.upgradeChainlet c.chainId c.version version automatic] } } := by
  constructor
  · intro h
    obtain ⟨_, m₁, hput, h⟩ := bind_eq_ok.1 h
    obtain ⟨hfits, rfl⟩ := put_eq_ok.1 hput
    cases h
    exact ⟨hfits, rfl⟩
  · rintro ⟨hfits, rfl⟩
    exact bind_eq_ok.2 ⟨(), _, put_eq_ok.2 ⟨hfits, rfl⟩, run_emit _⟩

/-- What a request for an upgrade has gone through if it succeeds. -/
theorem requestUpgrade_cases {msg : RequestUpgrade}
    (h : (requestUpgrade msg).run s m = (.ok (), m')) : ∃ params c target kind consumer? w,
      msg.Admitted (Overlay.mk s.store m.context.updates) params c target kind ∧
      s.parent.Enlists params m.context.time c target m.world consumer? w ∧
      msg.Concludes s.parent params (c.join? consumer?) target
        { m with world := w, context := m.context.enlist c.chainId consumer? } kind m' := by
  obtain ⟨params, hparams, h⟩ := still_params.bind_ok h
  obtain ⟨hparams, -⟩ := params_eq_ok.1 hparams
  obtain ⟨c, hfound, h⟩ := (still_chainlet _).bind_ok h
  obtain ⟨_, hmaintained, h⟩ := (still_requireMaintainer _ _).bind_ok h
  obtain ⟨hidle, h⟩ := guarded_eq_ok.1 h
  obtain ⟨stack, hstack, h⟩ := (still_stack _).bind_ok h
  obtain ⟨target, htarget, h⟩ := (still_enabledVersion _ _ _).bind_ok h
  obtain ⟨hother, h⟩ := guarded_eq_ok.1 h
  obtain ⟨kind, hkind, h⟩ := (still_liftVersion _).bind_ok h
  obtain ⟨hcapable, h⟩ := guarded_eq_ok.1 h
  -- Up to here the request has only read, so the chainlet joins from where the request began.
  obtain ⟨_, _, hregister, h⟩ := bind_eq_ok.1 h
  obtain ⟨consumer?, w, henlists, rfl, rfl⟩ := (registerForVersion_enlists hparams).1 hregister
  have hidle : c.upgrade? = none := by simpa using hidle
  refine ⟨params, c, target, kind, consumer?, w, {
    params_eq := hparams
    found := (chainlet_eq_ok.1 hfound).1
    maintained := (requireMaintainer_eq_ok.1 hmaintained).1
    idle := hidle
    offered := ⟨stack, (stack_eq_ok.1 hstack).1, (enabledVersion_eq_ok.1 htarget).1⟩
    other := hother
    takes := (liftVersion_eq_ok.1 hkind).1
    capable := fun hbreaking => ?_ }, henlists, ?_⟩
  · subst hbreaking
    cases hc : c.isConsumer with
    | true => exact .inl rfl
    | false => exact .inr (by simpa [hc] using hcapable)
  · cases kind with
    | compatible =>
      obtain ⟨hfits, rfl⟩ := applyVersion_eq_ok.1 h
      exact .moves rfl hfits
    | breaking =>
      obtain ⟨client, hclient, h⟩ := (still_consumerClient _).bind_ok h
      obtain ⟨latest, hlatest, h⟩ := (still_openRoute _ _).bind_ok h
      obtain ⟨plan, hplan, h⟩ := (still_liftVersion _).bind_ok h
      obtain ⟨upgrade?, hstep, h⟩ := (still_step _ _).bind_ok h
      obtain ⟨hstep, -⟩ := step_eq_ok.1 hstep
      -- A chainlet that has joined has no more pending than it had before.
      rw [Chainlet.upgrade?_join?, hidle] at hstep
      cases hstep
      obtain ⟨_, _, hsend, h⟩ := bind_eq_ok.1 h
      obtain ⟨sequence, w', rfl, hsent, rfl⟩ := send_eq_ok.1 hsend
      obtain ⟨_, _, hput, h⟩ := bind_eq_ok.1 h
      obtain ⟨hfits, rfl⟩ := put_eq_ok.1 hput
      cases h
      exact .schedules (route_iff.2 ⟨client, hclient, hlatest⟩) (liftVersion_eq_ok.1 hplan).1 rfl
        rfl hsent rfl hfits

/-- A request for an upgrade that goes through all of it succeeds. -/
theorem requestUpgrade_of_concludes {msg : RequestUpgrade} {params : Params} {c : Chainlet}
    {target : StackVersion} {kind : Upgrade.Kind} {consumer? : Option ConsumerId} {w : ω}
    (h : msg.Admitted (Overlay.mk s.store m.context.updates) params c target kind)
    (henlists : s.parent.Enlists params m.context.time c target m.world consumer? w)
    (hconcludes : msg.Concludes s.parent params (c.join? consumer?) target
      { m with world := w, context := m.context.enlist c.chainId consumer? } kind m') :
    (requestUpgrade msg).run s m = (.ok (), m') := by
  obtain ⟨stack, hstack, htarget⟩ := h.offered
  refine bind_eq_ok.2 ⟨params, m, params_eq_ok.2 ⟨h.params_eq, rfl⟩, ?_⟩
  refine bind_eq_ok.2 ⟨c, m, chainlet_eq_ok.2 ⟨h.found, rfl⟩, ?_⟩
  refine bind_eq_ok.2 ⟨(), m, requireMaintainer_eq_ok.2 ⟨h.maintained, rfl⟩, ?_⟩
  refine guarded_eq_ok.2 ⟨by simp [h.idle], ?_⟩
  refine bind_eq_ok.2 ⟨stack, m, stack_eq_ok.2 ⟨hstack, rfl⟩, ?_⟩
  refine bind_eq_ok.2 ⟨target, m, enabledVersion_eq_ok.2 ⟨htarget, rfl⟩, ?_⟩
  refine guarded_eq_ok.2 ⟨h.other, ?_⟩
  refine bind_eq_ok.2 ⟨kind, m, liftVersion_eq_ok.2 ⟨h.takes, rfl⟩, ?_⟩
  refine guarded_eq_ok.2 ⟨?_, ?_⟩
  · rintro ⟨hbreaking, hc, htarget⟩
    rcases h.capable hbreaking with hconsumer | hconsumer
    · simp [hconsumer] at hc
    · simp [hconsumer] at htarget
  refine bind_eq_ok.2
    ⟨_, _, (registerForVersion_enlists h.params_eq).2 ⟨consumer?, w, henlists, rfl, rfl⟩, ?_⟩
  cases hconcludes with
  | moves moved_eq fits =>
    subst moved_eq
    exact applyVersion_eq_ok.2 ⟨fits, rfl⟩
  | @schedules latest height plan data sequence w' scheduled reachable named height_eq data_eq sent
      scheduled_eq fits =>
    subst height_eq data_eq scheduled_eq
    obtain ⟨client, hclient, hroute⟩ := route_iff.1 reachable
    refine bind_eq_ok.2 ⟨client, _, hclient, ?_⟩
    refine bind_eq_ok.2 ⟨latest, _, hroute, ?_⟩
    refine bind_eq_ok.2 ⟨plan, _, liftVersion_eq_ok.2 ⟨named, rfl⟩, ?_⟩
    have hrequest (upgrade : PendingUpgrade) :
        Handshake.request (c.join? consumer?).upgrade? upgrade = .ok (some upgrade) := by
      rw [Chainlet.upgrade?_join?, h.idle]
      rfl
    refine bind_eq_ok.2 ⟨_, _, step_eq_ok.2 ⟨hrequest _, rfl⟩, ?_⟩
    refine bind_eq_ok.2 ⟨_, _, send_eq_ok.2 ⟨sequence, w', rfl, sent, rfl⟩, ?_⟩
    exact bind_eq_ok.2 ⟨(), _, put_eq_ok.2 ⟨fits, rfl⟩, run_emit _⟩

/-- A request for an upgrade of a consumer that passes every check sends a packet and leaves the
upgrade pending. -/
theorem requestUpgrade_of_granted {msg : RequestUpgrade} {params : Params} {c : Chainlet}
    {target : StackVersion} {latest : Height} {plan : String}
    (h : msg.Granted s.parent m.world (Overlay.mk s.store m.context.updates) params c target latest
      plan) {height : Height} (hheight : height =
      latest.add (Word.add params.minUpgradeHeightDelta msg.heightDelta)) {data : PacketData}
    (hdata : data = .create c.chainId plan height.number target.image) {sequence : Sequence}
    {world : ω} (hsent : s.parent.sendPacket Channel.port msg.channel
      (latest.add params.timeoutHeightDelta) (m.context.time.add params.timeout) data.encode
      m.world = (.ok sequence, world)) {scheduled : Chainlet}
    (hscheduled : scheduled = { c with upgrade? := some ⟨target.version, height, msg.channel⟩ })
    (hfits : Stored.fits scheduled = true) :
    (requestUpgrade msg).run s m = (.ok (), { m with
      context := { m.context with
        updates := m.context.updates.insert (Entry.chainlet c.chainId).key (Stored.encode scheduled)
        events := m.context.events ++ [.scheduleUpgrade c.chainId plan target.version height
          msg.channel sequence (.of data.encode)] }
      world }) := by
  have hadmitted : msg.Admitted (Overlay.mk s.store m.context.updates) params c target
      .breaking :=
    ⟨h.params, h.found, h.maintained, h.idle, h.offered, h.other, h.breaking,
      fun _ => .inl h.consumer⟩
  exact requestUpgrade_of_concludes hadmitted (.stays (.inl h.consumer))
    (.schedules h.reachable h.named hheight hdata hsent hscheduled hfits)

/-- A request to give an upgrade up that passes every check sends a packet and writes nothing. -/
theorem cancelUpgrade_of_granted {msg : CancelUpgrade} {params : Params} {c : Chainlet}
    {upgrade : PendingUpgrade} {latest : Height} {plan : String}
    (h : msg.Granted s.parent m.world (Overlay.mk s.store m.context.updates) params c upgrade latest
      plan) {data : PacketData} (hdata : data = .cancel c.chainId plan) {sequence : Sequence}
    {world : ω} (hsent : s.parent.sendPacket Channel.port upgrade.channel
      (latest.add params.timeoutHeightDelta) (m.context.time.add params.timeout) data.encode
      m.world = (.ok sequence, world)) :
    (cancelUpgrade msg).run s m = (.ok (), { m with
      context := { m.context with
        events := m.context.events ++ [.requestCancelUpgrade c.chainId plan upgrade.channel
          sequence (.of data.encode)] }
      world }) := by
  subst hdata
  obtain ⟨client, hclient, hroute⟩ := route_iff.1 h.reachable
  refine bind_eq_ok.2 ⟨params, m, params_eq_ok.2 ⟨h.params, rfl⟩, ?_⟩
  refine bind_eq_ok.2 ⟨c, m, chainlet_eq_ok.2 ⟨h.found, rfl⟩, ?_⟩
  refine bind_eq_ok.2 ⟨(), m, requireMaintainer_eq_ok.2 ⟨h.maintained, rfl⟩, ?_⟩
  refine bind_eq_ok.2 ⟨upgrade, m, step_eq_ok.2 ⟨by rw [h.pending]; rfl, rfl⟩, ?_⟩
  refine bind_eq_ok.2 ⟨client, m, hclient, ?_⟩
  refine bind_eq_ok.2 ⟨latest, m, hroute, ?_⟩
  refine bind_eq_ok.2 ⟨plan, m, liftVersion_eq_ok.2 ⟨h.named, rfl⟩, ?_⟩
  exact bind_eq_ok.2 ⟨_, _, send_eq_ok.2 ⟨sequence, world, rfl, hsent, rfl⟩, run_emit _⟩

end Operation

/-- What the controller makes of a message that is handled with success. -/
theorem Controller.perform_handle {ω : Type} {store : Store} {parent : Parent ω} {msg : Message}
    {live : Live ω} {m' : Machine ω} (hcheck : msg.check = .ok ())
    (hrun : (Operation.ofMessage msg).run ⟨store, parent, live.cache⟩
      ⟨live.context, live.world, live.log⟩ = (.ok (), m')) :
    perform store parent (.handle msg) live =
      (.ok .done, { live with context := m'.context, world := m'.world, log := m'.log }) := by
  rcases perform_message store parent msg live with ⟨_, hrejected, -⟩ | ⟨-, hperform⟩
  · cases hcheck.symm.trans hrejected
  · rw [hperform, execute, runBare, run_atomic_of_ok hrun]
    rfl

end Chainlets
