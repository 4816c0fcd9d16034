import Chainlets.Proofs.Upgrade.Requests

/-!
# What a request for an upgrade comes to

A request for an upgrade is refused, or it moves the chainlet, or it schedules an upgrade, and which
of these it is can be told from what it comes upon. A chainlet may have joined as a consumer before
the channel turns out to be closed, or the packet not to be sent. Then the request is refused all
the same, and nothing is left of it in the context. The packet is the last thing that can fail, so
no packet is sent for a request that is refused.

## Main definitions

* `RequestUpgrade.Deliverable`, `RequestUpgrade.Accepted` — what a request comes upon that is
  granted.
* `RequestUpgrade.Refused`, `RequestUpgrade.Moves`, `RequestUpgrade.Schedules` — what it comes to.

## Main results

* `Controller.perform_handle_cases` — a message is handled, or leaves nothing in the context.
* `Controller.requestUpgrade_outcomes` — **a request for an upgrade comes to one of three things.**
-/

namespace Chainlets

open Execution

namespace RequestUpgrade

variable {ω : Type}

/-- A packet that asks a chainlet to take part in a breaking upgrade can be sent: an open channel
leads to the chainlet, and the parent chain sends the packet over it. -/
def Deliverable (msg : RequestUpgrade) (parent : Parent ω) (params : Params) (time : Time)
    (c : Chainlet) (target : StackVersion) (w : ω) : Prop :=
  ∃ latest plan sequence w', c.ReachableOver parent w msg.channel latest ∧
    Upgrade.planName c.version target.version = .ok plan ∧
    parent.sendPacket Channel.port msg.channel (latest.add params.timeoutHeightDelta)
      (time.add params.timeout) (PacketData.create c.chainId plan
        (latest.add (Word.add params.minUpgradeHeightDelta msg.heightDelta)).number
        target.image).encode w = (.ok sequence, w')

/-- What a request comes upon that is granted: it passes the checks, the chainlet joins if it has
to, and if the upgrade is a breaking one, the packet that asks for it can be sent then. -/
def Accepted (msg : RequestUpgrade) (parent : Parent ω) (o : Overlay) (time : Time) (w : ω)
    (kind : Upgrade.Kind) : Prop :=
  ∃ params c target consumer? w', msg.Admitted o params c target kind ∧
    parent.Enlists params time c target w consumer? w' ∧
    (kind = .breaking → msg.Deliverable parent params time (c.join? consumer?) target w')

/-- Nothing comes of a request: it fails, the writes and the events of the context are as they were,
and no packet is sent. -/
structure Refused (live : Live (ω × List Call))
    (after : Except Failure Response × Live (ω × List Call)) : Prop where
  failed : ∃ failure, after.1 = .error failure
  updates : after.2.context.updates = live.context.updates
  events : after.2.context.events = live.context.events
  letters : Call.letters after.2.world.2 = Call.letters live.world.2

/-- A request is granted: it passes the checks, the chainlet joins exactly if it has to, nothing but
its record and its mark as a consumer changes, and some packets are sent. -/
structure Grants (msg : RequestUpgrade) (store : Store) (reg : Registry)
    (live : Live (ω × List Call)) (after : Except Failure Response × Live (ω × List Call))
    (kind : Upgrade.Kind) (c : Chainlet) (target : StackVersion) (consumer? : Option ConsumerId)
    (record : Chainlet) (sent : List Host.SentPacket) : Prop where
  done : after.1 = .ok .done
  admitted : ∃ params, msg.Admitted (Overlay.mk store live.context.updates) params c target kind
  about : c.chainId = msg.chainId
  joins : consumer?.isSome = true ↔ c.isConsumer = false ∧ target.isConsumer = true
  shows : ((reg.await? c.chainId consumer?).putChainlet record).ShownBy
    (Overlay.mk store after.2.context.updates)
  letters : Call.letters after.2.world.2 = Call.letters live.world.2 ++ sent

/-- A request moves a chainlet to a compatible version. Nothing is pending afterwards, and no packet
is sent. -/
def Moves (msg : RequestUpgrade) (store : Store) (reg : Registry) (live : Live (ω × List Call))
    (after : Except Failure Response × Live (ω × List Call)) : Prop :=
  ∃ c target consumer?,
    let moved : Chainlet := { c.join? consumer? with version := target.version }
    msg.Grants store reg live after .compatible c target consumer? moved [] ∧ moved.upgrade? = none

/-- A request schedules a breaking upgrade. The chainlet, which is a consumer then, stays on its
version, the upgrade is pending, and one packet is sent, which asks the chainlet to take part. -/
def Schedules (msg : RequestUpgrade) (store : Store) (reg : Registry) (live : Live (ω × List Call))
    (after : Except Failure Response × Live (ω × List Call)) : Prop :=
  ∃ c target consumer? height plan p,
    let scheduled : Chainlet :=
      { c.join? consumer? with upgrade? := some ⟨target.version, height, msg.channel⟩ }
    msg.Grants store reg live after .breaking c target consumer? scheduled [p] ∧
    scheduled.version = c.version ∧ scheduled.isConsumer = true ∧
    scheduled.consumer?.isSome = true ∧
    scheduled.Letter (.create scheduled.chainId plan height.number target.image) p

/-- A request that is refused is not granted. -/
theorem Refused.not_grants {msg : RequestUpgrade} {store : Store} {reg : Registry}
    {live : Live (ω × List Call)} {after : Except Failure Response × Live (ω × List Call)}
    {kind : Upgrade.Kind} {c : Chainlet} {target : StackVersion} {consumer? : Option ConsumerId}
    {record : Chainlet} {sent : List Host.SentPacket} (h : Refused live after) :
    ¬ msg.Grants store reg live after kind c target consumer? record sent := by
  intro hgrants
  obtain ⟨failure, hfailed⟩ := h.failed
  cases hfailed.symm.trans hgrants.done

/-- What a request comes upon is determined, -/
theorem Admitted.same {msg : RequestUpgrade} {o : Overlay} {params params' : Params}
    {c c' : Chainlet} {target target' : StackVersion} {kind kind' : Upgrade.Kind}
    (h : msg.Admitted o params c target kind) (h' : msg.Admitted o params' c' target' kind') :
    params = params' ∧ c = c' ∧ target = target' := by
  obtain rfl : c = c' := Option.some.inj (Except.ok.inj (h.found.symm.trans h'.found))
  obtain ⟨stack, hstack, htarget⟩ := h.offered
  obtain ⟨stack', hstack', htarget'⟩ := h'.offered
  obtain rfl : stack = stack' := Option.some.inj (Except.ok.inj (hstack.symm.trans hstack'))
  exact ⟨Except.ok.inj (h.params_eq.symm.trans h'.params_eq), rfl,
    Option.some.inj (htarget.symm.trans htarget')⟩

/-- and so is what it takes. -/
theorem Admitted.unique {msg : RequestUpgrade} {o : Overlay} {params params' : Params}
    {c c' : Chainlet} {target target' : StackVersion} {kind kind' : Upgrade.Kind}
    (h : msg.Admitted o params c target kind) (h' : msg.Admitted o params' c' target' kind') :
    kind = kind' := by
  obtain ⟨-, rfl, rfl⟩ := h.same h'
  exact Except.ok.inj (h.takes.symm.trans h'.takes)

end RequestUpgrade

/-! ### Joining -/

namespace Parent.Enlists

variable {ω : Type} {params : Params} {time : Time} {c : Chainlet} {target : StackVersion}
  {consumer? : Option ConsumerId}

theorem isSome_iff {parent : Parent ω} {w w' : ω}
    (h : parent.Enlists params time c target w consumer? w') :
    consumer?.isSome = true ↔ c.isConsumer = false ∧ target.isConsumer = true := by
  cases h with
  | stays ready =>
    refine iff_of_false (by simp) fun ⟨halone, hneeded⟩ => ?_
    simp [halone, hneeded] at ready
  | joins alone needed _ => exact iff_of_true rfl ⟨alone, needed⟩

/-- The name of a consumer that joins can be stored. -/
theorem fits {parent : Parent ω} {w w' : ω}
    (h : parent.Enlists params time c target w consumer? w') :
    ∀ consumer, consumer? = some consumer → Stored.fits consumer = true := by
  cases h with
  | stays _ => nofun
  | joins _ _ enlisted =>
    rintro _ ⟨⟩
    exact (enlist_eq_some enlisted).1

/-- No packet is sent when a chainlet joins. -/
theorem letters {parent : Parent ω} {w w' : ω × List Call}
    (h : parent.recorded.Enlists params time c target w consumer? w') :
    Call.letters w'.2 = Call.letters w.2 := by
  cases h with
  | stays _ => rfl
  | @joins consumer _ _ _ enlisted =>
    obtain ⟨-, created, hcreate, rfl⟩ := enlist_eq_some enlisted
    have hcreated : created.2 = w.2 ++ [.createConsumer c.chainId time params.unbondingPeriod
        (parent.createConsumer c.chainId time params.unbondingPeriod w.1).1] :=
      (congrArg (·.2.2) hcreate).symm
    calc Call.letters ((created.2 ++ [.queueChange consumer _]) ++ [.advanceValidatorSetId])
      _ = Call.letters created.2 := by
        rw [Call.letters_concat rfl, Call.letters_concat rfl]
      _ = Call.letters w.2 := by rw [hcreated, Call.letters_concat rfl]

/-- A chainlet that takes part in a breaking upgrade is a consumer then. -/
theorem isConsumer_join? {parent : Parent ω} {w w' : ω}
    (h : parent.Enlists params time c target w consumer? w')
    (hcapable : c.isConsumer = true ∨ target.isConsumer = true) :
    (c.join? consumer?).isConsumer = true := by
  cases h with
  | stays ready =>
    rcases hcapable with hconsumer | hneeded
    · exact hconsumer
    · exact ready.resolve_right (by simp [hneeded])
  | joins _ _ _ => rfl

end Parent.Enlists

theorem Registry.ShownBy.enlist {reg : Registry} {store : Store} {context : Context}
    (h : reg.ShownBy (Overlay.mk store context.updates)) (chainId : String)
    {consumer? : Option ConsumerId}
    (hfits : ∀ consumer, consumer? = some consumer → Stored.fits consumer = true) :
    (reg.await? chainId consumer?).ShownBy
      (Overlay.mk store (context.enlist chainId consumer?).updates) := by
  cases consumer? with
  | none => exact h
  | some consumer => exact h.await chainId (hfits consumer rfl)

namespace Controller

variable {ω : Type} {store : Store} {parent : Parent ω} {reg : Registry}

/-- A message is handled, or it leaves the writes and the events as they were. -/
theorem perform_handle_cases (parent : Parent ω) (msg : Message) (live : Live ω) :
    let after := perform store parent (.handle msg) live
    (msg.check = .ok () ∧ ∃ m', (Operation.ofMessage msg).run ⟨store, parent, live.cache⟩
      ⟨live.context, live.world, live.log⟩ = (.ok (), m')) ∨
    (∃ failure, after.1 = .error failure) ∧ after.2.context.updates = live.context.updates ∧
      after.2.context.events = live.context.events := by
  intro after
  rcases perform_message store parent msg live with ⟨failure, -, hperform⟩ | ⟨hcheck, hperform⟩
  · rw [show after = _ from hperform]
    exact .inr ⟨⟨failure, rfl⟩, rfl, rfl⟩
  · rcases @execute_cases _ _ store parent (Operation.ofMessage msg) live with
      ⟨_, m', hrun, -⟩ | ⟨failure, m', -, heq⟩
    · exact .inl ⟨hcheck, m', hrun⟩
    · rw [show after = _ from hperform, heq, (settle_context failure _).1]
      exact .inr ⟨⟨failure, rfl⟩, rfl, rfl⟩

section Granted

variable {msg : RequestUpgrade} {live : Live (ω × List Call)} {params : Params} {c : Chainlet}
  {target : StackVersion} {kind : Upgrade.Kind} {consumer? : Option ConsumerId}
  {w : ω × List Call}

/-- What passes the checks was stored under the chain id that is asked for, and so was the name of
the version. -/
theorem stored_of_admitted (hreg : reg.Filed) {o : Overlay} (hshows : reg.ShownBy o)
    (h : msg.Admitted o params c target kind) :
    c.chainId = msg.chainId ∧ Stored.fits c = true ∧ Stored.fits target.version = true := by
  have hheld := hshows.chainlet?_eq_some_iff.1 h.found
  obtain ⟨stack, hstack, htarget⟩ := h.offered
  have hlisted : reg.catalog.get? c.stack = some stack :=
    Except.ok.inj ((hshows.catalog.read? c.stack).symm.trans hstack)
  exact ⟨hreg.chainlets _ c hheld, hshows.chainlets.fits hheld,
    Operation.fits_enabled? (hshows.catalog.fits hlisted) htarget⟩

/-- A request for a compatible version that passes the checks moves the chainlet. -/
theorem moves_of_accepted (hreg : reg.Filed)
    (hshows : reg.ShownBy (Overlay.mk store live.context.updates)) (hcheck : msg.check = .ok ())
    (h : msg.Accepted parent.recorded (Overlay.mk store live.context.updates) live.context.time
      live.world .compatible) :
    msg.Moves store reg live
      (perform store parent.recorded (.handle (.requestUpgrade msg)) live) := by
  obtain ⟨params, c, target, consumer?, w, hadmitted, henlists, -⟩ := h
  obtain ⟨habout, hc, htarget⟩ := stored_of_admitted hreg hshows hadmitted
  have hfits := Operation.fits_moved (Operation.fits_join? hc henlists.fits) htarget
  have hrun := Operation.requestUpgrade_of_concludes (s := ⟨store, parent.recorded, live.cache⟩)
    (m := ⟨live.context, live.world, live.log⟩) hadmitted henlists (.moves rfl hfits)
  have hidle : (c.join? consumer?).upgrade? = none := by
    rw [Chainlet.upgrade?_join?, hadmitted.idle]
  rw [@perform_handle _ _ _ (.requestUpgrade msg) _ _ hcheck hrun]
  have hshown := (hshows.enlist c.chainId henlists.fits).putChainlet hfits
  have hletters : Call.letters w.2 = Call.letters live.world.2 ++ [] := by
    rw [henlists.letters, List.append_nil]
  exact ⟨c, target, consumer?,
    ⟨rfl, ⟨params, hadmitted⟩, habout, henlists.isSome_iff, hshown, hletters⟩, hidle⟩

/-- A request for a breaking upgrade that passes the checks, and whose packet can be sent, schedules
the upgrade. -/
theorem schedules_of_accepted (hreg : reg.Filed)
    (hshows : reg.ShownBy (Overlay.mk store live.context.updates)) (hcheck : msg.check = .ok ())
    (hchannel : parent.recorded.BoundsChannel msg.channel)
    (h : msg.Accepted parent.recorded (Overlay.mk store live.context.updates) live.context.time
      live.world .breaking) :
    msg.Schedules store reg live
      (perform store parent.recorded (.handle (.requestUpgrade msg)) live) := by
  obtain ⟨params, c, target, consumer?, w, hadmitted, henlists, hdeliverable⟩ := h
  obtain ⟨latest, plan, sequence, w', hreachable, hnamed, hsent⟩ := hdeliverable rfl
  obtain ⟨habout, hc, htarget⟩ := stored_of_admitted hreg hshows hadmitted
  obtain ⟨consumer, _, connection, hconsumer, -, hend, -⟩ := hreachable.route
  have hchannel : Stored.fits msg.channel = true := hchannel _ _ hend
  let height := latest.add (Word.add params.minUpgradeHeightDelta msg.heightDelta)
  let scheduled : Chainlet :=
    { c.join? consumer? with upgrade? := some ⟨target.version, height, msg.channel⟩ }
  let data : PacketData := .create scheduled.chainId plan height.number target.image
  let p : Host.SentPacket := ⟨Channel.port, msg.channel, sequence,
    latest.add params.timeoutHeightDelta, live.context.time.add params.timeout, data.encode⟩
  have hfits : Stored.fits scheduled = true :=
    Operation.fits_scheduled (Operation.fits_join? hc henlists.fits) htarget hchannel
  have hrun := Operation.requestUpgrade_of_concludes (s := ⟨store, parent.recorded, live.cache⟩)
    (m := ⟨live.context, live.world, live.log⟩) hadmitted henlists
    (.schedules hreachable hnamed rfl rfl (by rw [Context.time_enlist]; exact hsent) rfl hfits)
  have hletters : Call.letters w'.2 = Call.letters live.world.2 ++ [p] := by
    rw [Parent.letters_sendPacket hsent, henlists.letters]
  have hletter : scheduled.Letter data p := ⟨rfl, rfl, rfl, _, rfl, rfl, hnamed⟩
  have hshown := (hshows.enlist c.chainId henlists.fits).putChainlet hfits
  rw [@perform_handle _ _ _ (.requestUpgrade msg) _ _ hcheck hrun]
  exact ⟨c, target, consumer?, height, plan, p,
    ⟨rfl, ⟨params, hadmitted⟩, habout, henlists.isSome_iff, hshown, hletters⟩,
    Chainlet.version_join? .., henlists.isConsumer_join? (hadmitted.capable rfl),
    by rw [hconsumer]; rfl, hletter⟩

/-- A request that succeeds has come upon what it takes. -/
theorem accepted_of_run {cache : TreeCache} {m m' : Machine (ω × List Call)}
    (h : (Operation.requestUpgrade msg).run ⟨store, parent.recorded, cache⟩ m = (.ok (), m')) :
    ∃ kind, msg.Accepted parent.recorded (Overlay.mk store m.context.updates) m.context.time
      m.world kind := by
  obtain ⟨params, c, target, kind, consumer?, w, hadmitted, henlists, hconcludes⟩ :=
    Operation.requestUpgrade_cases h
  refine ⟨kind, params, c, target, consumer?, w, hadmitted, henlists, fun hbreaking => ?_⟩
  cases hconcludes with
  | moves _ _ => cases hbreaking
  | @schedules latest _ plan _ sequence w' _ hreachable hnamed height_eq data_eq hsent _ _ =>
    subst height_eq data_eq
    rw [Context.time_enlist] at hsent
    exact ⟨latest, plan, sequence, w', hreachable, hnamed, hsent⟩

/-- No packet is sent for a request that fails, since the parent chain bounds the name of the
channel. -/
theorem letters_of_failed (hreg : reg.Filed)
    (hshows : reg.ShownBy (Overlay.mk store live.context.updates))
    (hchannel : parent.recorded.BoundsChannel msg.channel)
    (hfailed : ∃ failure,
      (perform store parent.recorded (.handle (.requestUpgrade msg)) live).1 = .error failure) :
    Call.letters (perform store parent.recorded (.handle (.requestUpgrade msg)) live).2.world.2 =
      Call.letters live.world.2 := by
  obtain ⟨letters, notices, hletters, -, hmails⟩ :=
    @perform_sends _ store parent _ hreg (.handle (.requestUpgrade msg)) live hshows
  cases hmails with
  | nothing => rw [hletters, List.append_nil]
  | posted done _ =>
    obtain ⟨failure, hfailed⟩ := hfailed
    cases hfailed.symm.trans done
  | lost _ unbounded =>
    refine absurd (fun _ hrequest => ?_) unbounded
    cases hrequest
    exact hchannel

end Granted

/-- **A request for an upgrade comes to exactly one of three things**, given that the parent chain
bounds the name of the channel: it is refused and nothing comes of it, it moves the chainlet to a
compatible version, or it schedules a breaking upgrade. It is granted exactly if it passes its own
check, the one who asks is a maintainer, nothing is pending, the version is an enabled one of the
stack and another than the chainlet runs, and whatever the parent chain has to do for it works. -/
theorem requestUpgrade_outcomes (hreg : reg.Filed) (live : Live (ω × List Call))
    (hshows : reg.ShownBy (Overlay.mk store live.context.updates)) (msg : RequestUpgrade)
    (hchannel : parent.recorded.BoundsChannel msg.channel) :
    let after := perform store parent.recorded (.handle (.requestUpgrade msg)) live
    let accepted := msg.Accepted parent.recorded (Overlay.mk store live.context.updates)
      live.context.time live.world
    (RequestUpgrade.Refused live after ∨ msg.Moves store reg live after ∨
      msg.Schedules store reg live after) ∧
    ¬ (RequestUpgrade.Refused live after ∧ msg.Moves store reg live after) ∧
    ¬ (RequestUpgrade.Refused live after ∧ msg.Schedules store reg live after) ∧
    ¬ (msg.Moves store reg live after ∧ msg.Schedules store reg live after) ∧
    (msg.Moves store reg live after ↔ msg.check = .ok () ∧ accepted .compatible) ∧
    (msg.Schedules store reg live after ↔ msg.check = .ok () ∧ accepted .breaking) := by
  intro after accepted
  -- What is accepted is granted. What is not accepted fails, and is refused; so each of the three
  -- outcomes can be told from what is accepted, since no two of them go together.
  have hmoves (h : msg.check = .ok () ∧ accepted .compatible) : msg.Moves store reg live after :=
    moves_of_accepted hreg hshows h.1 h.2
  have hschedules (h : msg.check = .ok () ∧ accepted .breaking) :
      msg.Schedules store reg live after :=
    schedules_of_accepted hreg hshows h.1 hchannel h.2
  have hcases : RequestUpgrade.Refused live after ∨ (msg.check = .ok () ∧ accepted .compatible) ∨
      (msg.check = .ok () ∧ accepted .breaking) := by
    rcases perform_handle_cases parent.recorded (.requestUpgrade msg) live with
      ⟨hcheck, m', hrun⟩ | ⟨hfailed, hupdates, hevents⟩
    · obtain ⟨kind, haccepted⟩ := accepted_of_run hrun
      cases kind with
      | compatible => exact .inr (.inl ⟨hcheck, haccepted⟩)
      | breaking => exact .inr (.inr ⟨hcheck, haccepted⟩)
    · exact .inl ⟨hfailed, hupdates, hevents, letters_of_failed hreg hshows hchannel hfailed⟩
  have hnotMoved : ¬ (RequestUpgrade.Refused live after ∧ msg.Moves store reg live after) :=
    fun ⟨hrefused, _, _, _, hgrants, _⟩ => hrefused.not_grants hgrants
  have hnotScheduled : ¬ (RequestUpgrade.Refused live after ∧ msg.Schedules store reg live after) :=
    fun ⟨hrefused, _, _, _, _, _, _, hgrants, _⟩ => hrefused.not_grants hgrants
  have hnotBoth : ¬ (msg.Moves store reg live after ∧ msg.Schedules store reg live after) := by
    rintro ⟨⟨_, _, _, hmoved, _⟩, _, _, _, _, _, _, hscheduled, _⟩
    obtain ⟨_, hcompatible⟩ := hmoved.admitted
    obtain ⟨_, hbreaking⟩ := hscheduled.admitted
    cases hcompatible.unique hbreaking
  refine ⟨hcases.imp_right (.imp hmoves hschedules), hnotMoved, hnotScheduled, hnotBoth,
    ⟨fun h => ?_, hmoves⟩, ⟨fun h => ?_, hschedules⟩⟩
  · rcases hcases with hrefused | hcompatible | hbreaking
    · exact absurd ⟨hrefused, h⟩ hnotMoved
    · exact hcompatible
    · exact absurd ⟨h, hschedules hbreaking⟩ hnotBoth
  · rcases hcases with hrefused | hcompatible | hbreaking
    · exact absurd ⟨hrefused, h⟩ hnotScheduled
    · exact absurd ⟨hmoves hcompatible, h⟩ hnotBoth
    · exact hbreaking

/-- A genesis state with a chainlet that is not a consumer, and a version in the next series that
runs as one. -/
def divided : Genesis where
  params := {}
  catalog := [⟨"alpha", "", [],
    [⟨"a", "1.0.0", "a", true, false⟩, ⟨"b", "2.0.0", "b", true, true⟩]⟩]
  chainlets := [Operation.outdatedChainlet "alpha_1-1" false]

/-- A parent chain with a channel that leads to the consumer that is created first. -/
def connected : Host.World :=
  Host.World.setChannel { Host.World.initial with
    connections := (∅ : OrderedMap String String).insert "connection-0" "07-tendermint-0"
    heights := (∅ : OrderedMap String Height).insert "07-tendermint-0" ⟨7⟩ }
    Channel.port "channel-0" ⟨.isOpen, ["connection-0"]⟩

/-- What the import of the genesis state leaves. -/
def dividedMachine : Machine (Host.World × List Call) :=
  ((Operation.importGenesis divided).run ⟨∅, (Host.World.parent true).recorded, .unloaded⟩
    ⟨.fresh ⟨1⟩ ⟨0⟩, (connected, []), []⟩).2

/-- The maintainer asks for the breaking upgrade. -/
def crossing : RequestUpgrade := ⟨"launcher", "alpha_1-1", "2.0.0", 0, "channel-0"⟩

theorem wellFormed_divided : divided.WellFormed where
  accepted := by decide +kernel
  consumer := by decide
  upgrade c hc upgrade hupgrade := by
    rw [List.mem_singleton.1 hc] at hupgrade
    cases hupgrade

theorem shownBy_divided :
    divided.registry.ShownBy (Overlay.mk ∅ dividedMachine.context.updates) :=
  Operation.shownBy_importGenesis divided _ _ _ _ _ _ (by decide +kernel)

/-- The chainlet that is asked to take part. -/
def dividedChainlet : Chainlet := Operation.outdatedChainlet "alpha_1-1" false

theorem admitted_crossing : crossing.Admitted (Overlay.mk ∅ dividedMachine.context.updates)
    divided.params dividedChainlet ⟨"b", "2.0.0", "b", true, true⟩ .breaking where
  params_eq := by decide +kernel
  found := by decide +kernel
  maintained := by decide
  idle := rfl
  offered := ⟨divided.catalog.head (by decide), by decide +kernel, by decide +kernel⟩
  other := by decide
  takes := by decide +kernel
  capable _ := .inr rfl

/-- The parent chain after the chainlet has joined. -/
def enlisted : Option ConsumerId × Host.World × List Call :=
  (Host.World.parent true).recorded.enlist (some divided.params) ⟨0⟩ "alpha_1-1" (connected, [])

theorem enlisted_eq : enlisted = (some ⟨"0"⟩, enlisted.2) := Prod.ext (by decide +kernel) rfl

/-- The first packet is sent, whatever it says. -/
theorem sendPacket_enlisted (timeoutHeight : Height) (timeoutTime : Time) (data : Bytes) :
    ((Host.World.parent true).recorded.sendPacket Channel.port "channel-0" timeoutHeight
      timeoutTime data enlisted.2).1 = .ok ⟨1⟩ := by
  have hworks : enlisted.2.1.outages.transport = false := by decide +kernel
  have hfirst : enlisted.2.1.sent = [] := by decide +kernel
  change (Host.World.sendPacket enlisted.2.1 Channel.port "channel-0" timeoutHeight timeoutTime
    data).1 = _
  rw [Host.World.sendPacket, hworks, hfirst]
  rfl

theorem reachableOver_enlisted : (dividedChainlet.join ⟨"0"⟩).ReachableOver
    (Host.World.parent true).recorded enlisted.2 "channel-0" ⟨7⟩ where
  route := by
    have hclient : (Host.World.parent true).consumerClient? ⟨"0"⟩ enlisted.2.1 =
        some "07-tendermint-0" := by decide +kernel
    have hend : enlisted.2.1.routes.channel? Channel.port "channel-0" =
        some ⟨.isOpen, ["connection-0"]⟩ := by decide +kernel
    have hleads : enlisted.2.1.routes.client? "connection-0" = some "07-tendermint-0" := by
      decide +kernel
    have hheight : enlisted.2.1.routes.height? "07-tendermint-0" = some ⟨7⟩ := by decide +kernel
    exact ⟨⟨"0"⟩, "07-tendermint-0", "connection-0", rfl, hclient, hend, hleads, hheight⟩

/-- The chainlet joins, and the upgrade is scheduled. -/
theorem requestUpgrade_outcomes_crossing :
    let live : Live (Host.World × List Call) :=
      ⟨dividedMachine.context, .unloaded, (connected, []), []⟩
    divided.registry.Filed ∧
    divided.registry.ShownBy (Overlay.mk ∅ live.context.updates) ∧
    (Host.World.parent true).recorded.BoundsChannel crossing.channel ∧
    crossing.Schedules ∅ divided.registry live
      (perform ∅ (Host.World.parent true).recorded (.handle (.requestUpgrade crossing)) live) := by
  intro live
  have hchannel : (Host.World.parent true).recorded.BoundsChannel crossing.channel :=
    Parent.boundsChannel_of_length_le fun _ _ _ => by decide
  obtain ⟨-, -, -, -, -, hschedules⟩ := requestUpgrade_outcomes wellFormed_divided.registry.filed
    live shownBy_divided crossing hchannel
  refine ⟨wellFormed_divided.registry.filed, shownBy_divided, hchannel, hschedules.2
    ⟨by decide +kernel, divided.params, dividedChainlet, _, some ⟨"0"⟩, _, admitted_crossing,
      .joins rfl rfl enlisted_eq, fun _ => ⟨⟨7⟩, "1-to-2", ⟨1⟩, _, reachableOver_enlisted,
        by decide +kernel, Prod.ext (sendPacket_enlisted _ _ _) rfl⟩⟩⟩

end Controller

end Chainlets
