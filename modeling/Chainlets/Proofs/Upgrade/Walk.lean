import Chainlets.Proofs.Coherence.Quiet
import Chainlets.Proofs.Execution.Failing
import Chainlets.Proofs.Upgrade.News

/-!
# The walk from a channel to a chainlet

Anyone can open a channel to the module's port. News of a chainlet are trusted only after a walk
that ends at the light client of the chainlet, and while an upgrade is pending only over the channel
of the upgrade. What the walk checks is a property of the record, the parent chain and the channel,
and a run of the walk succeeds exactly if they have it. A transition is carried out after the walk;
it writes at most one record.

## Main definitions

* `Channel.LeadsTo`, `Chainlet.TrustedOver` — a channel that is trusted to carry news of a chainlet.
* `Chainlet.ReachableOver` — a channel over which packets can be sent to a chainlet.
* `Operation.written`, `Operation.told` — the buffered writes after a transition has been carried
  out, and the events that tell of it.

## Main results

* `Operation.verifiedChainlet_eq_ok` — **what the walk checks.**
* `Operation.route_iff` — what is checked before a packet is sent.
* `Operation.failsClean_verifiedChainlet`, `Operation.failsClean_carryOut`.
* `Operation.carryOut_eq_ok`, `Operation.get?_written` — what is written, and what is not.
* `Operation.run_carryOut`, `Operation.fits_apply` — a record that was stored can be settled.
-/

namespace Chainlets

open Execution Handshake

/-! ### Trusted channels -/

/-- A channel is on the module's port, exists, and goes over one connection, whose light client is
a given one. -/
def Channel.LeadsTo (routes : Routes) (onPort channel client : String) : Prop :=
  onPort = port ∧ ∃ state connection,
    routes.channel? onPort channel = some ⟨state, [connection]⟩ ∧
    routes.client? connection = some client

theorem Channel.lead_eq_ok_iff {routes : Routes} {onPort channel client : String}
    {channelEnd : ChannelEnd} :
    lead routes onPort channel client = .ok channelEnd ↔
      LeadsTo routes onPort channel client ∧
        routes.channel? onPort channel = some channelEnd := by
  constructor
  · intro h
    rw [lead] at h
    split at h
    next => cases h
    next hport =>
      split at h
      next => cases h
      next found hfound =>
        obtain ⟨state, hops⟩ := found
        match hops with
        | [] => cases h
        | _ :: _ :: _ => cases h
        | [connection] =>
          dsimp only at h
          split at h
          next => cases h
          next actual hactual =>
            split at h
            next hclient =>
              cases h
              rw [hclient] at hactual
              exact ⟨⟨not_not.1 hport, state, connection, hfound, hactual⟩, hfound⟩
            next => cases h
  · rintro ⟨⟨hport, state, connection, hfound, hclient⟩, hend⟩
    rw [hfound] at hend
    rw [lead, if_neg (not_not.2 hport), hfound]
    simp [hclient, Option.some.inj hend]

theorem Channel.leadOpen_eq_ok_iff {routes : Routes} {onPort channel client : String}
    {channelEnd : ChannelEnd} :
    leadOpen routes onPort channel client = .ok channelEnd ↔
      (LeadsTo routes onPort channel client ∧ routes.channel? onPort channel = some channelEnd) ∧
        channelEnd.state = .isOpen := by
  rw [leadOpen, ← lead_eq_ok_iff]
  cases lead routes onPort channel client with
  | error fault => exact ⟨nofun, nofun⟩
  | ok found =>
    change (if found.state = .isOpen then Except.ok found else _) = _ ↔ _
    split
    next hstate => exact ⟨fun h => ⟨h, Except.ok.inj h ▸ hstate⟩, And.left⟩
    next hstate => exact ⟨nofun, fun h => absurd (Except.ok.inj h.1 ▸ h.2) hstate⟩

/-- A channel is trusted to carry news of a chainlet: it leads to the light client of the chainlet,
and is the one over which the pending upgrade was negotiated, if one is pending. -/
structure Chainlet.TrustedOver {ω : Type} (c : Chainlet) (parent : Parent ω) (world : ω)
    (port channel : String) : Prop where
  leads : ∃ consumer client, c.consumer? = some consumer ∧
    parent.consumerClient? consumer world = some client ∧
    Channel.LeadsTo (parent.routes world) port channel client
  recorded : ∀ upgrade, c.upgrade? = some upgrade → upgrade.channel = channel

/-- Packets can be sent to a chainlet over a channel: it is open and leads to the light client of
the chainlet, which has seen some height. -/
structure Chainlet.ReachableOver {ω : Type} (c : Chainlet) (parent : Parent ω) (world : ω)
    (channel : String) (latest : Height) : Prop where
  route : ∃ consumer client connection, c.consumer? = some consumer ∧
    parent.consumerClient? consumer world = some client ∧
    (parent.routes world).channel? Channel.port channel = some ⟨.isOpen, [connection]⟩ ∧
    (parent.routes world).client? connection = some client ∧
    (parent.routes world).height? client = some latest

namespace Operation

variable {ω : Type} {s : Surroundings ω} {m m' : Machine ω} {c : Chainlet}

theorem consumerClient_eq_ok {client : String} :
    (consumerClient c : Execution ω String).run s m = (.ok client, m') ↔
      (∃ consumer, c.consumer? = some consumer ∧
        s.parent.consumerClient? consumer m.world = some client) ∧ m = m' := by
  rw [consumerClient, bind_eq_ok]
  constructor
  · rintro ⟨client?, m₁, hask, hrest⟩
    obtain ⟨hclient?, rfl⟩ := ask_eq_ok.1 hask
    cases client? with
    | none => cases hrest
    | some found =>
      obtain ⟨rfl, rfl⟩ := pure_eq_ok.1 hrest
      exact ⟨Option.bind_eq_some_iff.1 hclient?, rfl⟩
  · rintro ⟨hclient, rfl⟩
    refine ⟨some client, _, ask_eq_ok.2 ⟨?_, rfl⟩, rfl⟩
    exact Option.bind_eq_some_iff.2 hclient

/-- **What the walk checks**: the chainlet is there, and the channel is trusted. -/
theorem verifiedChainlet_eq_ok {chainId port channel : String} :
    (verifiedChainlet chainId port channel : Execution ω Chainlet).run s m = (.ok c, m') ↔
      (Readable.chainlet? (Overlay.mk s.store m.context.updates) chainId = .ok (some c) ∧
        c.TrustedOver s.parent m.world port channel) ∧ m = m' := by
  constructor
  · intro h
    obtain ⟨c₁, m₁, hread, h⟩ := bind_eq_ok.1 h
    obtain ⟨hfound, rfl⟩ := chainlet_eq_ok.1 hread
    obtain ⟨client, m₂, hask, h⟩ := bind_eq_ok.1 h
    obtain ⟨⟨consumer, hconsumer, hclient⟩, rfl⟩ := consumerClient_eq_ok.1 hask
    obtain ⟨routes, m₃, hroutes, h⟩ := bind_eq_ok.1 h
    obtain ⟨rfl, rfl⟩ := ask_eq_ok.1 hroutes
    obtain ⟨channelEnd, m₄, hwalk, h⟩ := bind_eq_ok.1 h
    obtain ⟨hlead, rfl⟩ := liftChannel_eq_ok.1 hwalk
    have hleads := (Channel.lead_eq_ok_iff.1 hlead).1
    cases hpending : c₁.upgrade? with
    | none =>
      rw [hpending] at h
      obtain ⟨rfl, rfl⟩ := pure_eq_ok.1 h
      refine ⟨⟨hfound, ⟨consumer, client, hconsumer, hclient, hleads⟩, ?_⟩, rfl⟩
      simp [hpending]
    | some upgrade =>
      rw [hpending] at h
      obtain ⟨_, m₅, hcheck, h⟩ := bind_eq_ok.1 h
      obtain ⟨hrecorded, rfl⟩ := liftChannel_eq_ok.1 hcheck
      obtain ⟨rfl, rfl⟩ := pure_eq_ok.1 h
      refine ⟨⟨hfound, ⟨consumer, client, hconsumer, hclient, hleads⟩, ?_⟩, rfl⟩
      rw [Channel.requireRecorded] at hrecorded
      split at hrecorded
      next hsame => simpa [hpending] using hsame
      next => cases hrecorded
  · rintro ⟨⟨hfound, ⟨consumer, client, hconsumer, hclient, hleads⟩, hrecorded⟩, rfl⟩
    refine bind_eq_ok.2 ⟨c, _, chainlet_eq_ok.2 ⟨hfound, rfl⟩, ?_⟩
    refine bind_eq_ok.2
      ⟨client, _, consumerClient_eq_ok.2 ⟨⟨consumer, hconsumer, hclient⟩, rfl⟩, ?_⟩
    refine bind_eq_ok.2 ⟨_, _, ask_eq_ok.2 ⟨rfl, rfl⟩, ?_⟩
    obtain ⟨-, state, connection, hend, -⟩ := id hleads
    refine bind_eq_ok.2
      ⟨_, _, liftChannel_eq_ok.2 ⟨Channel.lead_eq_ok_iff.2 ⟨hleads, hend⟩, rfl⟩, ?_⟩
    cases hpending : c.upgrade? with
    | none => rfl
    | some upgrade =>
      have hsame : Channel.requireRecorded upgrade.channel channel = .ok () :=
        if_pos (hrecorded upgrade hpending)
      exact bind_eq_ok.2 ⟨(), _, liftChannel_eq_ok.2 ⟨hsame, rfl⟩, rfl⟩

/-- What is required of a channel over which a packet is to be sent. -/
theorem openRoute_eq_ok {channel client : String} {latest : Height} :
    (openRoute channel client : Execution ω Height).run s m = (.ok latest, m') ↔
      (∃ connection,
        (s.parent.routes m.world).channel? Channel.port channel = some ⟨.isOpen, [connection]⟩ ∧
        (s.parent.routes m.world).client? connection = some client ∧
        (s.parent.routes m.world).height? client = some latest) ∧ m = m' := by
  constructor
  · intro h
    obtain ⟨routes, m₁, hroutes, h⟩ := bind_eq_ok.1 h
    obtain ⟨rfl, rfl⟩ := ask_eq_ok.1 hroutes
    obtain ⟨channelEnd, m₂, hwalk, h⟩ := bind_eq_ok.1 h
    obtain ⟨hopen, rfl⟩ := liftChannel_eq_ok.1 hwalk
    obtain ⟨hheight, rfl⟩ := liftChannel_eq_ok.1 h
    obtain ⟨⟨hleads, hend⟩, hstate⟩ := Channel.leadOpen_eq_ok_iff.1 hopen
    obtain ⟨-, state, connection, hfound, hclient⟩ := hleads
    obtain rfl : _ = channelEnd := Option.some.inj (hfound.symm.trans hend)
    obtain rfl : state = .isOpen := hstate
    refine ⟨⟨connection, hfound, hclient, ?_⟩, rfl⟩
    rw [Channel.latestHeight] at hheight
    split at hheight
    next height hlatest => rw [hlatest, Except.ok.inj hheight]
    next => cases hheight
  · rintro ⟨⟨connection, hend, hclient, hlatest⟩, rfl⟩
    refine bind_eq_ok.2 ⟨_, m, ask_eq_ok.2 ⟨rfl, rfl⟩, ?_⟩
    have hleads : Channel.LeadsTo (s.parent.routes m.world) Channel.port channel client :=
      ⟨rfl, .isOpen, connection, hend, hclient⟩
    refine bind_eq_ok.2 ⟨_, m, liftChannel_eq_ok.2
      ⟨Channel.leadOpen_eq_ok_iff.2 ⟨⟨hleads, hend⟩, rfl⟩, rfl⟩, ?_⟩
    exact liftChannel_eq_ok.2 ⟨by rw [Channel.latestHeight, hlatest], rfl⟩

/-- **The way to a chainlet**: its light client is known, and an open channel leads there. -/
theorem route_iff {channel : String} {latest : Height} :
    c.ReachableOver s.parent m.world channel latest ↔ ∃ client,
      (consumerClient c : Execution ω String).run s m = (.ok client, m) ∧
      (openRoute channel client : Execution ω Height).run s m = (.ok latest, m) := by
  constructor
  · rintro ⟨consumer, client, connection, hconsumer, hclient, hroute⟩
    exact ⟨client, consumerClient_eq_ok.2 ⟨⟨consumer, hconsumer, hclient⟩, rfl⟩,
      openRoute_eq_ok.2 ⟨⟨connection, hroute⟩, rfl⟩⟩
  · rintro ⟨client, hask, hopen⟩
    obtain ⟨⟨consumer, hconsumer, hclient⟩, -⟩ := consumerClient_eq_ok.1 hask
    obtain ⟨⟨connection, hroute⟩, -⟩ := openRoute_eq_ok.1 hopen
    exact ⟨consumer, client, connection, hconsumer, hclient, hroute⟩

theorem step_eq_ok {α : Type} {chainId : String} {x : Except Refusal α} {a : α} :
    (step chainId x : Execution ω α).run s m = (.ok a, m') ↔ x = .ok a ∧ m = m' := by
  rw [step.eq_def]
  split
  next => simp [eq_comm]
  next => simp
  next => simp
  next => simp

/-! ### Failing clean -/

theorem failsClean_consumerClient (c : Chainlet) :
    (consumerClient c : Execution ω String).FailsClean := by
  refine (FailsClean.ask _).bind (still_ask _) fun client? => ?_
  cases client? with
  | none => exact .fail rfl
  | some client => exact .pure client

theorem failsClean_verifiedChainlet (chainId port channel : String) :
    (verifiedChainlet chainId port channel : Execution ω Chainlet).FailsClean := by
  refine (FailsClean.chainlet chainId).bind (still_chainlet chainId) fun c => ?_
  refine (failsClean_consumerClient c).bind (still_consumerClient c) fun client => ?_
  refine (FailsClean.ask _).bind (still_ask _) fun routes => ?_
  refine (FailsClean.liftChannel _).bind (still_liftChannel _) fun _ => ?_
  cases c.upgrade? with
  | none => exact .pure c
  | some upgrade =>
    exact (FailsClean.liftChannel _).bind (still_liftChannel _) fun _ => .pure c

theorem failsClean_step {α : Type} (chainId : String) (x : Except Refusal α) :
    (step chainId x : Execution ω α).FailsClean := by
  rw [step.eq_def]
  split
  next => exact .pure _
  next => exact .fail rfl
  next => exact .fail rfl
  next => exact .fail rfl

theorem failsClean_carryOut (c : Chainlet) (plan : String) (height : Height) (t : Transition) :
    (carryOut c plan height t : Execution ω Outcome).FailsClean := by
  cases t with
  | stay => exact .pure _
  | ignore reason => rintro s m failure m' ⟨⟩
  | cancel upgrade reason => exact (FailsClean.put _ _).bind_total fun _ _ _ _ _ h => by cases h
  | complete upgrade => exact (FailsClean.put _ _).bind_total fun _ _ _ _ _ h => by cases h

theorem failsClean_check (msg : Confirmation) :
    (liftM msg.check : Execution ω Unit).FailsClean := by
  refine FailsClean.ofExcept fun failure h => ?_
  rw [Confirmation.check] at h
  cases hid : requireChainId msg.chainId with
  | error failure' =>
    rw [hid] at h
    cases h
    rw [requireChainId] at hid
    split at hid
    · cases hid
    · cases hid; rfl
  | ok _ =>
    rw [hid] at h
    change requireNonBlank "channel" msg.channel = _ at h
    rw [requireNonBlank] at h
    split at h
    · cases h; rfl
    · cases h

/-! ### Carrying out -/

/-- The buffered writes after a transition of a chainlet has been carried out. -/
def written (c : Chainlet) (t : Transition) (u : Updates) : Updates :=
  match t with
  | .stay => u
  | .ignore _ => u
  | .cancel .. | .complete _ => u.insert (Entry.chainlet c.chainId).key (Stored.encode (t.apply c))

/-- What a transition that is carried out does: it is reported, and at most one record is written,
which is the chainlet's own. -/
theorem carryOut_eq_ok {plan : String} {height : Height} {t : Transition} {outcome : Outcome}
    (h : (carryOut c plan height t : Execution ω Outcome).run s m = (.ok outcome, m')) :
    outcome = t.outcome ∧ (t.apply c = c ∨ Stored.fits (t.apply c) = true) ∧
      m'.context.updates = written c t m.context.updates := by
  have hput {d : Chainlet} {m₁ : Machine ω} {u : Unit}
      (hrun : (putChainlet d : Execution ω Unit).run s m = (.ok u, m₁)) :
      Stored.fits d = true ∧ m₁.context.updates =
        m.context.updates.insert (Entry.chainlet d.chainId).key (Stored.encode d) := by
    rw [putChainlet, put] at hrun
    split at hrun
    next hfits => cases hrun; exact ⟨hfits, rfl⟩
    next => cases hrun
  cases t with
  | stay => cases h; exact ⟨rfl, .inl rfl, rfl⟩
  | ignore reason => cases h; exact ⟨rfl, .inl rfl, rfl⟩
  | cancel upgrade reason =>
    obtain ⟨_, m₁, hwrite, hrest⟩ := bind_eq_ok.1 h
    obtain ⟨hfits, hupdates⟩ := hput hwrite
    cases hrest
    exact ⟨rfl, .inr hfits, hupdates⟩
  | complete upgrade =>
    obtain ⟨_, m₁, hwrite, hrest⟩ := bind_eq_ok.1 h
    obtain ⟨hfits, hupdates⟩ := hput hwrite
    cases hrest
    exact ⟨rfl, .inr hfits, hupdates⟩

/-- The events that tell of a transition of a chainlet. -/
def told (c : Chainlet) (plan : String) (height : Height) : Transition → List Event
  | .stay => []
  | .ignore reason => [.ignorePacket c.chainId plan reason]
  | .cancel upgrade reason => [.cancelUpgrade c.chainId upgrade.targetVersion reason]
  | .complete upgrade => [.completeUpgrade c.chainId upgrade.targetVersion height]

/-- **How a transition is carried out**, if the record that it leaves can be stored: it is reported,
written and told, and nothing else happens in the context. -/
theorem run_carryOut {t : Transition} (hfits : Stored.fits (t.apply c) = true) (plan : String)
    (height : Height) : ∃ entries, (carryOut c plan height t : Execution ω Outcome).run s m =
      (.ok t.outcome, { m with
        context := { m.context with
          updates := written c t m.context.updates
          events := m.context.events ++ told c plan height t }
        log := entries }) := by
  have hput {d : Chainlet} (hd : Stored.fits d = true) :
      (putChainlet d : Execution ω Unit).run s m = (.ok (), { m with
        context := { m.context with
          updates :=
            m.context.updates.insert (Entry.chainlet d.chainId).key (Stored.encode d) } }) := by
    rw [putChainlet, put, if_pos hd]
    rfl
  cases t with
  | stay =>
    refine ⟨m.log, ?_⟩
    rw [told, List.append_nil]
    rfl
  | ignore reason => exact ⟨_, rfl⟩
  | cancel upgrade reason => exact ⟨_, run_bind_of_ok (hput hfits)⟩
  | complete upgrade => exact ⟨_, run_bind_of_ok (hput hfits)⟩

/-- What a step of the handshake leaves of a record that is stored can be stored. -/
theorem fits_apply {news : News} {plan : String} {t : Transition} (hc : Stored.fits c = true)
    (ht : news.transition c.upgrade? c.version plan = .ok t) : Stored.fits (t.apply c) = true := by
  rcases News.transition_cases ht with ⟨upgrade, hpending, -, rfl⟩ | ⟨⟨reason, rfl⟩, -⟩
  · have hsettled : Stored.fits (none : Option PendingUpgrade) = true := rfl
    have hgivenUp : Stored.fits { c with upgrade? := none } = true := by
      simp only [Stored.fits, Bool.and_eq_true] at hc ⊢
      exact ⟨hc.1, hsettled⟩
    have hcompleted :
        Stored.fits { c with version := upgrade.targetVersion, upgrade? := none } = true := by
      simp only [Stored.fits, Bool.and_eq_true, hpending] at hc ⊢
      obtain ⟨⟨⟨hfields, -⟩, hconsumer⟩, hupgrade⟩ := hc
      have htarget := (Bool.and_eq_true_iff.1 hupgrade).1
      exact ⟨⟨⟨hfields, htarget⟩, hconsumer⟩, hsettled⟩
    cases news with
    | confirmed => exact hcompleted
    | createAnswered success => cases success <;> assumption
    | createExpired => exact hgivenUp
    | cancelAnswered success => cases success <;> assumption
    | cancelExpired => exact hc
  · exact hc

/-- Nothing but the record of the chainlet is touched. -/
theorem get?_written (store : Store) (t : Transition) (u : Updates) {k : Bytes}
    (hk : k ≠ (Entry.chainlet c.chainId).key) :
    Readable.get? (Overlay.mk store (written c t u)) k = Readable.get? (Overlay.mk store u) k := by
  cases t with
  | stay => rfl
  | ignore reason => rfl
  | cancel upgrade reason => exact (Overlay.get?_insert ..).trans (if_neg hk)
  | complete upgrade => exact (Overlay.get?_insert ..).trans (if_neg hk)

end Operation

end Chainlets
