import Chainlets.Proofs.Coherence.Effect
import Chainlets.Proofs.Upgrade.Walk

/-!
# Callbacks

A packet that arrived, an answer to a packet, and a timeout are callbacks. All three go the same
way: the content of the packet is read, the chainlet that it names is looked up, the channel is
walked to the light client of the chainlet, the handshake says what the news amount to, and that is
carried out. Everything before the last step only reads. So a callback that fails changes nothing,
and one that succeeds has passed every check.

## Main definitions

* `Callback`, with `Callback.request` and `Callback.execution`.
* `Callback.Tells` — the news that a callback brings.
* `Callback.Reaches` — everything that a callback has come upon before the last step.

## Main results

* `Callback.run_eq_ok` — **a callback that succeeds has passed every check.**
* `Callback.run_of_reaches` — **a callback that passes every check succeeds.**
* `Callback.failsClean` — **a callback that fails leaves nothing behind.**
* `Callback.perform_cases`, `Callback.perform_of_reaches` — the same of the controller.
-/

namespace Chainlets

open Execution Handshake

/-- The plan name that a packet carries. -/
def PacketData.plan : PacketData → String
  | .create _ plan .. => plan
  | .cancel _ plan => plan
  | .confirm _ _ plan => plan

/-- Something that the transport tells the module. -/
inductive Callback where
  /-- A packet arrived. -/
  | received (packet : Packet)
  /-- A packet that was sent was answered. -/
  | answered (packet : Packet) (answer : Bytes)
  /-- A packet that was sent timed out. -/
  | expired (packet : Packet)
deriving DecidableEq

namespace Callback

/-- What the host asks of the module on a callback. -/
def request : Callback → Request
  | .received packet => .receive packet
  | .answered packet answer => .acknowledged packet answer
  | .expired packet => .timedOut packet

/-- What is run on a callback. -/
def execution {ω : Type} : Callback → Execution ω Outcome
  | .received packet => Operation.receive packet
  | .answered packet answer => Operation.acknowledged packet answer
  | .expired packet => Operation.timedOut packet

/-- A callback keeps every frame that allows for writing records of chainlets. -/
theorem keeps_execution {ω : Type} {F : Frame ω} (h : F.AllowsRecords) (cb : Callback) :
    Keeps F cb.execution := by
  cases cb with
  | received packet => exact Operation.keeps_receive h packet
  | answered packet answer => exact Operation.keeps_acknowledged h packet answer
  | expired packet => exact Operation.keeps_timedOut h packet

/-- The packet that a callback is about. -/
def packet : Callback → Packet
  | .received packet => packet
  | .answered packet _ => packet
  | .expired packet => packet

/-- The port of the module's own end of the channel. -/
def port : Callback → String
  | .received packet => packet.destinationPort
  | .answered packet _ => packet.sourcePort
  | .expired packet => packet.sourcePort

/-- The module's own end of the channel. -/
def channel : Callback → String
  | .received packet => packet.destinationChannel
  | .answered packet _ => packet.sourceChannel
  | .expired packet => packet.sourceChannel

/-- What the host is told of a callback that succeeded. -/
def response (outcome : Outcome) : Callback → Response
  | .received _ => .answer (.success EmptyPayload.mk)
  | .answered .. => .outcome outcome
  | .expired _ => .outcome outcome

/-- What the host is told of a callback that failed. To a packet that arrived, that is an answer. -/
def refusal (failure : Failure) : Callback → Except Failure Response
  | .received _ => .ok (.answer (.error failure.message))
  | .answered .. => .error failure
  | .expired _ => .error failure

/-- The news that a callback brings, and the packet that they are about. -/
inductive Tells : Callback → PacketData → News → Prop
  | confirmed {packet : Packet} {chainId plan : String} {height : UInt64}
      (content : PacketData.decode packet.data = .ok (.confirm chainId height plan))
      (checked : Confirmation.check
        ⟨chainId, height, plan, packet.destinationPort, packet.destinationChannel⟩ = .ok ()) :
      Tells (.received packet) (.confirm chainId height plan) .confirmed
  | createAnswered {packet : Packet} {answer : Bytes} {chainId plan info : String}
      {height : UInt64} {ack : Acknowledgement}
      (content : PacketData.decode packet.data = .ok (.create chainId plan height info))
      (answered : Acknowledgement.decode answer = .ok ack) :
      Tells (.answered packet answer) (.create chainId plan height info)
        (.createAnswered ack.isSuccess)
  | createExpired {packet : Packet} {chainId plan info : String} {height : UInt64}
      (content : PacketData.decode packet.data = .ok (.create chainId plan height info)) :
      Tells (.expired packet) (.create chainId plan height info) .createExpired
  | cancelAnswered {packet : Packet} {answer : Bytes} {chainId plan : String}
      {ack : Acknowledgement}
      (content : PacketData.decode packet.data = .ok (.cancel chainId plan))
      (answered : Acknowledgement.decode answer = .ok ack) :
      Tells (.answered packet answer) (.cancel chainId plan) (.cancelAnswered ack.isSuccess)
  | cancelExpired {packet : Packet} {chainId plan : String}
      (content : PacketData.decode packet.data = .ok (.cancel chainId plan)) :
      Tells (.expired packet) (.cancel chainId plan) .cancelExpired

theorem Tells.content {cb : Callback} {data : PacketData} {news : News} (h : cb.Tells data news) :
    PacketData.decode cb.packet.data = .ok data := by
  cases h <;> assumption

/-- A callback brings at most one piece of news. -/
theorem Tells.unique {cb : Callback} {data data' : PacketData} {news news' : News}
    (h : cb.Tells data news) (h' : cb.Tells data' news') : data = data' ∧ news = news' := by
  obtain rfl : data = data' := Except.ok.inj (h.content.symm.trans h'.content)
  refine ⟨rfl, ?_⟩
  cases h with
  | confirmed => cases h'; rfl
  | createExpired => cases h'; rfl
  | cancelExpired => cases h'; rfl
  | createAnswered content answered =>
    cases h' with
    | createAnswered content' answered' => rw [Except.ok.inj (answered.symm.trans answered')]
  | cancelAnswered content answered =>
    cases h' with
    | cancelAnswered content' answered' => rw [Except.ok.inj (answered.symm.trans answered')]

/-- What a callback has come upon before the last step: the news, the chainlet that they are about,
a channel that is trusted to carry them, and the step of the handshake. -/
structure Reaches {ω : Type} (cb : Callback) (parent : Parent ω) (world : ω) (o : Overlay)
    (data : PacketData) (news : News) (c : Chainlet) (t : Transition) : Prop where
  tells : cb.Tells data news
  found : Readable.chainlet? o data.chainId = .ok (some c)
  trusted : c.TrustedOver parent world cb.port cb.channel
  moves : news.transition c.upgrade? c.version data.plan = .ok t

variable {ω : Type} {s : Surroundings ω} {m m' : Machine ω} {cb : Callback}

/-- A callback comes upon at most one record, and one step of the handshake. -/
theorem Reaches.unique {parent : Parent ω} {world : ω} {o : Overlay} {data data' : PacketData}
    {news news' : News} {c c' : Chainlet} {t t' : Transition}
    (h : cb.Reaches parent world o data news c t)
    (h' : cb.Reaches parent world o data' news' c' t') : data = data' ∧ c = c' ∧ t = t' := by
  obtain ⟨rfl, rfl⟩ := h.tells.unique h'.tells
  obtain rfl : c = c' := Option.some.inj (Except.ok.inj (h.found.symm.trans h'.found))
  exact ⟨rfl, rfl, Except.ok.inj (h.moves.symm.trans h'.moves)⟩

/-! ### Runs -/

/-- The walk and the step of the handshake, in a run that succeeded. -/
theorem reaches_of_run {data : PacketData} {news : News} {outcome : Outcome}
    (htells : cb.Tells data news) {c : Chainlet}
    (hverified : (Operation.verifiedChainlet data.chainId cb.port cb.channel :
      Execution ω Chainlet).run s m = (.ok c, m)) {height : Height}
    (hrest : (do
      let transition ← Operation.step c.chainId (news.transition c.upgrade? c.version data.plan)
      Operation.carryOut c data.plan height transition : Execution ω Outcome).run s m =
        (.ok outcome, m')) :
    ∃ t, cb.Reaches s.parent m.world (Overlay.mk s.store m.context.updates) data news c t ∧
      (Operation.carryOut c data.plan height t : Execution ω Outcome).run s m =
        (.ok outcome, m') := by
  obtain ⟨⟨hfound, htrusted⟩, -⟩ := Operation.verifiedChainlet_eq_ok.1 hverified
  obtain ⟨t, m₁, hstep, hcarry⟩ := bind_eq_ok.1 hrest
  obtain ⟨hmoves, rfl⟩ := Operation.step_eq_ok.1 hstep
  exact ⟨t, ⟨htells, hfound, htrusted, hmoves⟩, hcarry⟩

/-- **A callback that succeeds has passed every check.** -/
theorem run_eq_ok {outcome : Outcome} (h : cb.execution.run s m = (.ok outcome, m')) :
    ∃ data news c t height,
      cb.Reaches s.parent m.world (Overlay.mk s.store m.context.updates) data news c t ∧
      (Operation.carryOut c data.plan height t : Execution ω Outcome).run s m =
        (.ok outcome, m') := by
  cases cb with
  | received packet =>
    obtain ⟨data, m₁, hread, h⟩ := bind_eq_ok.1 h
    obtain ⟨hcontent, rfl⟩ := liftPacket_eq_ok.1 hread
    cases data with
    | create => cases h
    | cancel => cases h
    | confirm chainId height plan =>
      obtain ⟨_, m₂, hcheck, h⟩ := bind_eq_ok.1 h
      obtain ⟨hchecked, rfl⟩ := ofExcept_eq_ok.1 hcheck
      obtain ⟨c, m₃, hverified, h⟩ := bind_eq_ok.1 h
      obtain rfl := (Operation.verifiedChainlet_eq_ok.1 hverified).2
      obtain ⟨t, hreaches, hcarry⟩ := reaches_of_run (.confirmed hcontent hchecked) hverified h
      exact ⟨_, _, c, t, _, hreaches, hcarry⟩
  | answered packet answer =>
    obtain ⟨data, m₁, hread, h⟩ := bind_eq_ok.1 h
    obtain ⟨hcontent, rfl⟩ := liftPacket_eq_ok.1 hread
    obtain ⟨ack, m₂, hreadAck, h⟩ := bind_eq_ok.1 h
    obtain ⟨hack, rfl⟩ := liftPacket_eq_ok.1 hreadAck
    obtain ⟨c, m₃, hverified, h⟩ := bind_eq_ok.1 h
    obtain rfl := (Operation.verifiedChainlet_eq_ok.1 hverified).2
    obtain ⟨context, m₄, hcontext, h⟩ := bind_eq_ok.1 h
    obtain ⟨-, rfl⟩ := context_eq_ok.1 hcontext
    cases data with
    | create =>
      obtain ⟨t, hreaches, hcarry⟩ := reaches_of_run (.createAnswered hcontent hack) hverified h
      exact ⟨_, _, c, t, _, hreaches, hcarry⟩
    | cancel =>
      obtain ⟨t, hreaches, hcarry⟩ := reaches_of_run (.cancelAnswered hcontent hack) hverified h
      exact ⟨_, _, c, t, _, hreaches, hcarry⟩
    | confirm => cases h
  | expired packet =>
    obtain ⟨data, m₁, hread, h⟩ := bind_eq_ok.1 h
    obtain ⟨hcontent, rfl⟩ := liftPacket_eq_ok.1 hread
    obtain ⟨c, m₃, hverified, h⟩ := bind_eq_ok.1 h
    obtain rfl := (Operation.verifiedChainlet_eq_ok.1 hverified).2
    obtain ⟨context, m₄, hcontext, h⟩ := bind_eq_ok.1 h
    obtain ⟨-, rfl⟩ := context_eq_ok.1 hcontext
    cases data with
    | create =>
      obtain ⟨t, hreaches, hcarry⟩ := reaches_of_run (.createExpired hcontent) hverified h
      exact ⟨_, _, c, t, _, hreaches, hcarry⟩
    | cancel =>
      obtain ⟨t, hreaches, hcarry⟩ := reaches_of_run (.cancelExpired hcontent) hverified h
      exact ⟨_, _, c, t, _, hreaches, hcarry⟩
    | confirm => cases h

/-- Once a callback has brought news of a chainlet over a trusted channel, only the handshake is
left to be asked, and its answer to be carried out. -/
theorem run_of_tells {data : PacketData} {news : News} {c : Chainlet}
    (htells : cb.Tells data news)
    (hfound : Readable.chainlet? (Overlay.mk s.store m.context.updates) data.chainId =
      .ok (some c))
    (htrusted : c.TrustedOver s.parent m.world cb.port cb.channel) :
    ∃ height, (cb.execution : Execution ω Outcome).run s m = (do
      let transition ← Operation.step c.chainId (news.transition c.upgrade? c.version data.plan)
      Operation.carryOut c data.plan height transition : Execution ω Outcome).run s m := by
  have hverified : (Operation.verifiedChainlet data.chainId cb.port cb.channel :
      Execution ω Chainlet).run s m = (.ok c, m) :=
    Operation.verifiedChainlet_eq_ok.2 ⟨⟨hfound, htrusted⟩, rfl⟩
  have hcontext : (context : Execution ω Context).run s m = (.ok m.context, m) := rfl
  cases htells with
  | @confirmed packet chainId plan height content checked =>
    refine ⟨⟨height⟩, (run_bind_of_ok (liftPacket_eq_ok.2 ⟨content, rfl⟩)).trans ?_⟩
    refine (run_bind_of_ok (ofExcept_eq_ok.2 ⟨checked, rfl⟩)).trans ?_
    exact run_bind_of_ok hverified
  | createAnswered content answered =>
    refine ⟨m.context.height, (run_bind_of_ok (liftPacket_eq_ok.2 ⟨content, rfl⟩)).trans ?_⟩
    refine (run_bind_of_ok (liftPacket_eq_ok.2 ⟨answered, rfl⟩)).trans ?_
    exact (run_bind_of_ok hverified).trans (run_bind_of_ok hcontext)
  | cancelAnswered content answered =>
    refine ⟨m.context.height, (run_bind_of_ok (liftPacket_eq_ok.2 ⟨content, rfl⟩)).trans ?_⟩
    refine (run_bind_of_ok (liftPacket_eq_ok.2 ⟨answered, rfl⟩)).trans ?_
    exact (run_bind_of_ok hverified).trans (run_bind_of_ok hcontext)
  | createExpired content =>
    refine ⟨m.context.height, (run_bind_of_ok (liftPacket_eq_ok.2 ⟨content, rfl⟩)).trans ?_⟩
    exact (run_bind_of_ok hverified).trans (run_bind_of_ok hcontext)
  | cancelExpired content =>
    refine ⟨m.context.height, (run_bind_of_ok (liftPacket_eq_ok.2 ⟨content, rfl⟩)).trans ?_⟩
    exact (run_bind_of_ok hverified).trans (run_bind_of_ok hcontext)

/-- **A callback that passes every check succeeds**, if the record that it leaves can be stored, and
does what the step of the handshake comes to. -/
theorem run_of_reaches {data : PacketData} {news : News} {c : Chainlet} {t : Transition}
    (h : cb.Reaches s.parent m.world (Overlay.mk s.store m.context.updates) data news c t)
    (hfits : Stored.fits (t.apply c) = true) :
    ∃ height entries, (cb.execution : Execution ω Outcome).run s m = (.ok t.outcome, { m with
      context := { m.context with
        updates := Operation.written c t m.context.updates
        events := m.context.events ++ Operation.told c data.plan height t }
      log := entries }) := by
  obtain ⟨height, hlast⟩ := run_of_tells h.tells h.found h.trusted
  obtain ⟨entries, hcarry⟩ := Operation.run_carryOut (s := s) (m := m) hfits data.plan height
  exact ⟨height, entries,
    hlast.trans (bind_eq_ok.2 ⟨t, m, Operation.step_eq_ok.2 ⟨h.moves, rfl⟩, hcarry⟩)⟩

/-- **A callback fails clean.** -/
theorem failsClean (cb : Callback) : (cb.execution : Execution ω Outcome).FailsClean := by
  have hlast (c : Chainlet) (plan : String) (height : Height) (x : Except Refusal Transition) :
      (do
        let transition ← Operation.step c.chainId x
        Operation.carryOut c plan height transition : Execution ω Outcome).FailsClean :=
    (Operation.failsClean_step _ _).bind (Operation.still_step _ _) fun t =>
      Operation.failsClean_carryOut c plan height t
  cases cb with
  | received packet =>
    refine (FailsClean.liftPacket _).bind (still_liftPacket _) fun data => ?_
    cases data with
    | create => exact .fail rfl
    | cancel => exact .fail rfl
    | confirm chainId height plan =>
      refine (Operation.failsClean_check _).bind (still_liftFailure _) fun _ => ?_
      refine (Operation.failsClean_verifiedChainlet _ _ _).bind
        (Operation.still_verifiedChainlet _ _ _) fun c => ?_
      exact hlast c _ _ _
  | answered packet answer =>
    refine (FailsClean.liftPacket _).bind (still_liftPacket _) fun data => ?_
    refine (FailsClean.liftPacket _).bind (still_liftPacket _) fun ack => ?_
    refine (Operation.failsClean_verifiedChainlet _ _ _).bind
      (Operation.still_verifiedChainlet _ _ _) fun c => ?_
    refine FailsClean.context.bind still_context fun context => ?_
    cases data with
    | create => exact hlast c _ _ _
    | cancel => exact hlast c _ _ _
    | confirm => exact .fail rfl
  | expired packet =>
    refine (FailsClean.liftPacket _).bind (still_liftPacket _) fun data => ?_
    refine (Operation.failsClean_verifiedChainlet _ _ _).bind
      (Operation.still_verifiedChainlet _ _ _) fun c => ?_
    refine FailsClean.context.bind still_context fun context => ?_
    cases data with
    | create => exact hlast c _ _ _
    | cancel => exact hlast c _ _ _
    | confirm => exact .fail rfl

/-! ### Callbacks of the controller -/

theorem execute_map {α β : Type} (f : α → β) (x : Execution ω α) (store : Store)
    (parent : Parent ω) (live : Live ω) :
    Controller.execute store parent (f <$> x) live =
      ((Controller.execute store parent x live).1.map f,
        (Controller.execute store parent x live).2) := by
  have hmap (s : Surroundings ω) (m : Machine ω) :
      (f <$> x).run s m = ((x.run s m).1.map f, (x.run s m).2) := by
    rw [map_eq_pure_bind, run_bind]
    cases x.run s m with
    | mk result m' => cases result <;> rfl
  cases hrun : x.run ⟨store, parent, live.cache⟩ ⟨live.context, live.world, live.log⟩ with
  | mk result m' =>
    cases result with
    | ok a =>
      have hfx := hmap ⟨store, parent, live.cache⟩ ⟨live.context, live.world, live.log⟩
      rw [hrun] at hfx
      rw [Controller.execute, Controller.execute, Controller.runBare, Controller.runBare,
        run_atomic_of_ok hrun, run_atomic_of_ok hfx]
      rfl
    | error failure =>
      have hfx := hmap ⟨store, parent, live.cache⟩ ⟨live.context, live.world, live.log⟩
      rw [hrun] at hfx
      rw [Controller.execute, Controller.execute, Controller.runBare, Controller.runBare,
        run_atomic_of_error hrun, run_atomic_of_error hfx]
      rfl

/-- What the controller makes of a callback, in terms of its execution. -/
theorem perform_request (cb : Callback) (store : Store) (parent : Parent ω) (live : Live ω) :
    let executed := Controller.execute store parent cb.execution live
    let after := Controller.perform store parent cb.request live
    after.2.context = executed.2.context ∧ after.2.cache = executed.2.cache ∧
      after.1 = match executed.1 with
        | .ok outcome => .ok (cb.response outcome)
        | .error failure => cb.refusal failure := by
  cases cb with
  | received packet =>
    intro executed after
    have hafter : after = (.ok (.answer (Controller.receive store parent packet live).1),
      (Controller.receive store parent packet live).2) := rfl
    have hexecuted : executed = Controller.execute store parent (Operation.receive packet) live :=
      rfl
    rw [hafter, Controller.receive, ← hexecuted]
    obtain ⟨result, settled⟩ := executed
    cases result <;> exact ⟨rfl, rfl, rfl⟩
  | answered packet answer =>
    have heq :=
      execute_map Response.outcome (Operation.acknowledged packet answer) store parent live
    refine ⟨congrArg (·.2.context) heq, congrArg (·.2.cache) heq, (congrArg (·.1) heq).trans ?_⟩
    dsimp only [execution]
    cases (Controller.execute store parent (Operation.acknowledged packet answer) live).1 <;> rfl
  | expired packet =>
    have heq := execute_map Response.outcome (Operation.timedOut packet) store parent live
    refine ⟨congrArg (·.2.context) heq, congrArg (·.2.cache) heq, (congrArg (·.1) heq).trans ?_⟩
    dsimp only [execution]
    cases (Controller.execute store parent (Operation.timedOut packet) live).1 <;> rfl

/-- A callback whose execution succeeds is accepted, and leaves the context to it. -/
theorem perform_of_ok {cb : Callback} {store : Store} {parent : Parent ω} {live : Live ω}
    {outcome : Outcome} {m' : Machine ω}
    (h : (cb.execution : Execution ω Outcome).run ⟨store, parent, live.cache⟩
      ⟨live.context, live.world, live.log⟩ = (.ok outcome, m')) :
    let after := Controller.perform store parent cb.request live
    (Controller.execute store parent cb.execution live).1 = .ok outcome ∧
      after.1 = .ok (cb.response outcome) ∧ after.2.context = m'.context := by
  obtain ⟨hcontext, -, hresult⟩ := cb.perform_request store parent live
  obtain ⟨hok, hafter⟩ := Controller.execute_of_ok h
  rw [hok] at hresult
  exact ⟨hok, hresult, hcontext.trans hafter⟩

/-- A callback whose execution fails is refused, and leaves the context as it was. -/
theorem perform_of_error {cb : Callback} {store : Store} {parent : Parent ω} {live : Live ω}
    {failure : Failure} {m' : Machine ω}
    (h : (cb.execution : Execution ω Outcome).run ⟨store, parent, live.cache⟩
      ⟨live.context, live.world, live.log⟩ = (.error failure, m')) :
    let after := Controller.perform store parent cb.request live
    (Controller.execute store parent cb.execution live).1 = .error failure ∧
      after.1 = cb.refusal failure ∧ after.2.context = live.context := by
  obtain ⟨hcontext, -, hresult⟩ := cb.perform_request store parent live
  obtain ⟨rfl, hfatal⟩ := cb.failsClean _ _ _ _ h
  rcases @Controller.execute_cases ω Outcome store parent cb.execution live with
    ⟨_, _, hrun, -⟩ | ⟨_, _, hrun, heq⟩
  · cases h.symm.trans hrun
  · cases h.symm.trans hrun
    rw [heq] at hcontext hresult
    refine ⟨by rw [heq], hresult, hcontext.trans ?_⟩
    -- The context is rolled back to itself, and nothing is dropped from it.
    rw [(Controller.settle_context failure _).1, hfatal]
    simp [Context.rollback]

/-- **A callback fails and leaves everything as it was, or passes every check** and then writes at
most the record of the chainlet. -/
theorem perform_cases (cb : Callback) (store : Store) (parent : Parent ω) (live : Live ω) :
    let after := Controller.perform store parent cb.request live
    (∃ failure, after.1 = cb.refusal failure ∧ after.2.context = live.context) ∨
    ∃ data news c t, cb.Reaches parent live.world (Overlay.mk store live.context.updates)
        data news c t ∧
      after.1 = .ok (cb.response t.outcome) ∧
      (t.apply c = c ∨ Stored.fits (t.apply c) = true) ∧
      after.2.context.updates = Operation.written c t live.context.updates := by
  intro after
  cases hrun : (cb.execution : Execution ω Outcome).run ⟨store, parent, live.cache⟩
      ⟨live.context, live.world, live.log⟩ with
  | mk result m' =>
    cases result with
    | ok outcome =>
      obtain ⟨data, news, c, t, height, hreaches, hcarry⟩ := run_eq_ok hrun
      obtain ⟨rfl, hfits, hupdates⟩ := Operation.carryOut_eq_ok hcarry
      obtain ⟨-, hresult, hcontext⟩ := perform_of_ok hrun
      refine .inr ⟨data, news, c, t, hreaches, hresult, hfits, ?_⟩
      exact (congrArg Context.updates hcontext).trans hupdates
    | error failure => exact .inl ⟨failure, (perform_of_error hrun).2⟩

/-- **A callback that passes every check is accepted**, if the record that it leaves can be
stored. -/
theorem perform_of_reaches {cb : Callback} {store : Store} {parent : Parent ω} {live : Live ω}
    {data : PacketData} {news : News} {c : Chainlet} {t : Transition}
    (h : cb.Reaches parent live.world (Overlay.mk store live.context.updates) data news c t)
    (hfits : Stored.fits (t.apply c) = true) :
    let after := Controller.perform store parent cb.request live
    after.1 = .ok (cb.response t.outcome) ∧
      after.2.context.updates = Operation.written c t live.context.updates := by
  obtain ⟨_, _, hrun⟩ := run_of_reaches (s := ⟨store, parent, live.cache⟩)
    (m := ⟨live.context, live.world, live.log⟩) h hfits
  obtain ⟨-, hresult, hcontext⟩ := perform_of_ok hrun
  exact ⟨hresult, congrArg Context.updates hcontext⟩

end Callback

end Chainlets
