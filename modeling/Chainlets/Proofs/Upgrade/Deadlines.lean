import Chainlets.Proofs.Packet.RoundTrip
import Chainlets.Proofs.Upgrade.Outcomes

/-!
# Deadlines

The height of an upgrade, and the height and the time at which a packet times out, are sums of
64-bit words. A sum that wrapped would lie in the past: the upgrade would be due at once, and the
packet would have timed out before it was sent. So sums stop at the greatest word. They are taken in
several steps, each of which may stop there, and a number of seconds is first turned into
nanoseconds, of which there may be more than a word can count. Even so a deadline is the exact sum,
or the greatest word if the sum is above it.

What is reckoned from, and what comes of it, is stated of requests as they are handled: the height
is the one that the chainlet's light client has seen when the packet is sent, after the chainlet has
joined as a consumer if it has to.

## Main definitions

* `Host.SentPacket.TimedFrom` — when a packet times out.
* `RequestUpgrade.ReckonsFrom` — what the deadlines of a request are reckoned from.
* `PendingUpgrade.ScheduledBy` — an upgrade as it is on record, in the packet and in the event.
* `Host.SentPacket.Timely` — a packet is timed from what there is when it is sent.

## Main results

* `Controller.requestUpgrade_schedules` — an upgrade that is scheduled, with its deadlines.
* `Controller.perform_timed` — **whatever packet is sent, it is timed like that.**
-/

namespace Chainlets

open Execution

/-! ### Sums -/

/-- A packet times out at the exact sums, or at the greatest word where a sum is above it. -/
structure Host.SentPacket.TimedFrom (p : Host.SentPacket) (params : Params) (latest : Height)
    (time : Time) : Prop where
  height : p.timeoutHeight.number.toNat =
    min (latest.number.toNat + params.timeoutHeightDelta.toNat) Word.maxNat
  time : p.timeoutTime.nanos.toNat =
    min (time.nanos.toNat + params.timeoutSecs.toNat * nanosPerSec) Word.maxNat

/-- A packet that is sent with the timeouts that the parameters ask for. -/
theorem Host.SentPacket.timedFrom {p : Host.SentPacket} {params : Params} {latest : Height}
    {time : Time} (hheight : p.timeoutHeight = latest.add params.timeoutHeightDelta)
    (htime : p.timeoutTime = time.add params.timeout) : p.TimedFrom params latest time where
  height := by rw [hheight, Height.toNat_number_add]
  time := by rw [htime, Time.toNat_nanos_add]; rfl

namespace Host.SentPacket.TimedFrom

variable {p p' : Host.SentPacket} {params params' : Params} {latest latest' : Height}
  {time time' : Time}

/-- A packet does not time out before it is sent. -/
theorem not_before (h : p.TimedFrom params latest time) :
    latest.number ≤ p.timeoutHeight.number ∧ time.nanos ≤ p.timeoutTime.nanos := by
  rw [UInt64.le_iff_toNat_le, UInt64.le_iff_toNat_le, h.height, h.time]
  have hlatest := Word.toNat_le_maxNat latest.number
  have htime := Word.toNat_le_maxNat time.nanos
  omega

theorem height_mono (h : p.TimedFrom params latest time) (h' : p'.TimedFrom params' latest' time')
    (hlatest : latest.number ≤ latest'.number)
    (hdelta : params.timeoutHeightDelta ≤ params'.timeoutHeightDelta) :
    p.timeoutHeight.number ≤ p'.timeoutHeight.number := by
  rw [UInt64.le_iff_toNat_le] at hlatest hdelta ⊢
  rw [h.height, h'.height]
  omega

theorem time_mono (h : p.TimedFrom params latest time) (h' : p'.TimedFrom params' latest' time')
    (htime : time.nanos ≤ time'.nanos) (hsecs : params.timeoutSecs ≤ params'.timeoutSecs) :
    p.timeoutTime.nanos ≤ p'.timeoutTime.nanos := by
  rw [UInt64.le_iff_toNat_le] at htime hsecs ⊢
  have hnanos := Nat.mul_le_mul_right nanosPerSec hsecs
  rw [h.time, h'.time]
  omega

end Host.SentPacket.TimedFrom

/-- The height of an upgrade, which is summed up in two steps, stops only once. -/
theorem Height.toNat_number_add_add (h : Height) (a b : UInt64) :
    (h.add (Word.add a b)).number.toNat =
      min (h.number.toNat + a.toNat + b.toNat) Word.maxNat := by
  rw [Height.toNat_number_add, Word.toNat_add]
  omega

/-! ### What is reckoned from -/

/-- What a request for a breaking upgrade reckons its deadlines from: the parameters, and the height
that the light client of the chainlet has seen once the chainlet has joined as a consumer. -/
def RequestUpgrade.ReckonsFrom {ω : Type} (msg : RequestUpgrade) (store : Store)
    (parent : Parent ω) (live : Live (ω × List Call)) (params : Params) (latest : Height) : Prop :=
  ∃ c target consumer? w,
    msg.Admitted (Overlay.mk store live.context.updates) params c target .breaking ∧
    parent.recorded.Enlists params live.context.time c target live.world consumer? w ∧
    (c.join? consumer?).ReachableOver parent.recorded w msg.channel latest

/-- A chainlet joins in one way. -/
theorem Parent.Enlists.unique {ω : Type} {parent : Parent ω} {params : Params} {time : Time}
    {c : Chainlet} {target : StackVersion} {w w₁ w₂ : ω} {consumer₁? consumer₂? : Option ConsumerId}
    (h₁ : parent.Enlists params time c target w consumer₁? w₁)
    (h₂ : parent.Enlists params time c target w consumer₂? w₂) :
    consumer₁? = consumer₂? ∧ w₁ = w₂ := by
  cases h₁ with
  | stays ready =>
    cases h₂ with
    | stays _ => exact ⟨rfl, rfl⟩
    | joins alone needed _ => simp [alone, needed] at ready
  | joins alone needed enlisted =>
    cases h₂ with
    | stays ready => simp [alone, needed] at ready
    | joins _ _ enlisted' => exact Prod.mk.inj (enlisted.symm.trans enlisted')

/-- A chainlet has one light client, and that has seen one greatest height. -/
theorem Chainlet.ReachableOver.unique {ω : Type} {c : Chainlet} {parent : Parent ω} {world : ω}
    {channel : String} {latest latest' : Height} (h : c.ReachableOver parent world channel latest)
    (h' : c.ReachableOver parent world channel latest') : latest = latest' := by
  obtain ⟨consumer, client, _, hconsumer, hclient, -, -, hlatest⟩ := h.route
  obtain ⟨consumer', client', _, hconsumer', hclient', -, -, hlatest'⟩ := h'.route
  obtain rfl : consumer = consumer' := Option.some.inj (hconsumer.symm.trans hconsumer')
  obtain rfl : client = client' := Option.some.inj (hclient.symm.trans hclient')
  exact Option.some.inj (hlatest.symm.trans hlatest')

theorem RequestUpgrade.ReckonsFrom.unique {ω : Type} {msg : RequestUpgrade} {store : Store}
    {parent : Parent ω} {live : Live (ω × List Call)} {params params' : Params}
    {latest latest' : Height} (h : msg.ReckonsFrom store parent live params latest)
    (h' : msg.ReckonsFrom store parent live params' latest') :
    params = params' ∧ latest = latest' := by
  obtain ⟨c, target, consumer?, w, hadmitted, henlists, hreachable⟩ := h
  obtain ⟨c', target', consumer'?, w', hadmitted', henlists', hreachable'⟩ := h'
  obtain ⟨rfl, rfl, rfl⟩ := hadmitted.same hadmitted'
  obtain ⟨rfl, rfl⟩ := henlists.unique henlists'
  exact ⟨rfl, hreachable.unique hreachable'⟩

/-! ### What is scheduled -/

/-- An upgrade has been scheduled, and a packet has been sent for it: it is pending on the record of
a chainlet, the packet asks that chainlet to take part at its height, and the one event that tells
of a packet tells of both. -/
structure PendingUpgrade.ScheduledBy {ω : Type} (upgrade : PendingUpgrade) (p : Host.SentPacket)
    (store : Store) (live after : Live (ω × List Call)) : Prop where
  shown : ∃ c plan info,
    Readable.chainlet? (Overlay.mk store after.context.updates) c.chainId = .ok (some c) ∧
    c.upgrade? = some upgrade ∧
    PacketData.decode p.data = .ok (.create c.chainId plan upgrade.targetHeight.number info) ∧
    Event.notices after.context.events = Event.notices live.context.events ++
      [.scheduleUpgrade c.chainId plan upgrade.targetVersion upgrade.targetHeight upgrade.channel
        p.sequence (.of p.data)]
  sent : Call.letters after.world.2 = Call.letters live.world.2 ++ [p]

theorem PendingUpgrade.ScheduledBy.unique {ω : Type} {upgrade upgrade' : PendingUpgrade}
    {p p' : Host.SentPacket} {store : Store} {live after : Live (ω × List Call)}
    (h : upgrade.ScheduledBy p store live after) (h' : upgrade'.ScheduledBy p' store live after) :
    upgrade = upgrade' ∧ p = p' := by
  obtain ⟨_, _, _, -, -, -, htold⟩ := h.shown
  obtain ⟨_, _, _, -, -, -, htold'⟩ := h'.shown
  have hevent := List.append_cancel_left (htold.symm.trans htold')
  have hp := List.append_cancel_left (h.sent.symm.trans h'.sent)
  simp only [List.cons.injEq, Event.scheduleUpgrade.injEq, and_true] at hevent hp
  obtain ⟨-, -, hversion, hheight, hchannel, -, -⟩ := hevent
  refine ⟨?_, hp⟩
  cases upgrade
  cases upgrade'
  simp_all

theorem Context.notices_enlist (context : Context) (chainId : String)
    (consumer? : Option ConsumerId) :
    Event.notices (context.enlist chainId consumer?).events = Event.notices context.events := by
  cases consumer? with
  | none => rfl
  | some consumer =>
    rw [Context.enlist, Event.notices_append]
    simp [Event.notices, Event.isNotice]

namespace Controller

variable {ω : Type} {store : Store} {parent : Parent ω} {live : Live (ω × List Call)}

/-- **What comes of a request that is handled**: it has moved the chainlet, and tells of no packet,
or it has scheduled an upgrade, and its deadlines are the sums. -/
theorem requestUpgrade_schedules {msg : RequestUpgrade} {after : Live (ω × List Call)}
    (h : perform store parent.recorded (.handle (.requestUpgrade msg)) live = (.ok .done, after)) :
    ((∃ params c target,
        msg.Admitted (Overlay.mk store live.context.updates) params c target .compatible) ∧
      Event.notices after.context.events = Event.notices live.context.events) ∨
    ∃ (params : Params) (latest : Height) (upgrade : PendingUpgrade) (p : Host.SentPacket),
      msg.ReckonsFrom store parent live params latest ∧
      upgrade.ScheduledBy p store live after ∧
      upgrade.targetHeight = latest.add (Word.add params.minUpgradeHeightDelta msg.heightDelta) ∧
      p.TimedFrom params latest live.context.time := by
  rcases perform_handle_cases parent.recorded (.requestUpgrade msg) live with
    ⟨hcheck, m', hrun⟩ | ⟨⟨failure, hfailed⟩, -⟩
  · rw [perform_handle hcheck hrun] at h
    obtain rfl := (Prod.mk.inj h).2
    obtain ⟨params, c, target, kind, consumer?, w, hadmitted, henlists, hconcludes⟩ :=
      Operation.requestUpgrade_cases hrun
    cases hconcludes with
    | moves _ _ =>
      refine .inl ⟨⟨params, c, target, hadmitted⟩, ?_⟩
      dsimp only
      rw [Event.notices_append, Context.notices_enlist]
      simp [Event.notices, Event.isNotice]
    | @schedules latest height plan data sequence w' scheduled reachable named height_eq data_eq
        sent scheduled_eq fits =>
      rw [Context.time_enlist] at sent
      let upgrade : PendingUpgrade := ⟨target.version, height, msg.channel⟩
      let p : Host.SentPacket := ⟨Channel.port, msg.channel, sequence,
        latest.add params.timeoutHeightDelta, live.context.time.add params.timeout, data.encode⟩
      have hrecord : Readable.chainlet? (Overlay.mk store ((live.context.enlist c.chainId
          consumer?).updates.insert (Entry.chainlet scheduled.chainId).key
            (Stored.encode scheduled))) scheduled.chainId = .ok (some scheduled) :=
        Registry.ShownBy.read?_of_insert _ _ _ fits
      have hletters : Call.letters w'.2 = Call.letters live.world.2 ++ [p] := by
        rw [Parent.letters_sendPacket sent, henlists.letters]
      subst scheduled_eq data_eq
      refine .inr ⟨params, latest, upgrade, p, ⟨c, target, consumer?, w, hadmitted, henlists,
        reachable⟩, ⟨⟨_, plan, target.image, hrecord, rfl, PacketData.decode_encode _, ?_⟩,
        hletters⟩, height_eq, Host.SentPacket.timedFrom rfl rfl⟩
      dsimp only
      rw [Event.notices_append, Context.notices_enlist]
      rfl
  · rw [h] at hfailed
    cases hfailed

end Controller

/-! ### Whatever is sent -/

/-- Packets reach a chainlet over a channel, at once or when it has joined as a consumer for a
version. -/
def Chainlet.ReachedOver {ω : Type} (c : Chainlet) (parent : Parent ω) (params : Params)
    (time : Time) (world : ω) (channel : String) (latest : Height) : Prop :=
  c.ReachableOver parent world channel latest ∨ ∃ target consumer? w,
    parent.Enlists params time c target world consumer? w ∧
    (c.join? consumer?).ReachableOver parent w channel latest

/-- A packet is timed from the parameters and the time of a context, and from the height that the
light client of a chainlet on record has seen when the packet is sent. -/
def Host.SentPacket.Timely {ω : Type} (p : Host.SentPacket) (store : Store) (parent : Parent ω)
    (context : Context) (world : ω × List Call) : Prop :=
  ∃ (params : Params) (chainId : String) (c : Chainlet) (latest : Height),
    Readable.params (Overlay.mk store context.updates) = .ok params ∧
    Readable.chainlet? (Overlay.mk store context.updates) chainId = .ok (some c) ∧
    c.ReachedOver parent.recorded params context.time world p.channel latest ∧
    p.TimedFrom params latest context.time

namespace Operation

variable {ω : Type} {store : Store} {parent : Parent ω} {cache : TreeCache}
  {m m' : Machine (ω × List Call)}

/-- A timely packet is sent. -/
def SendsTimely (store : Store) (parent : Parent ω) (m m' : Machine (ω × List Call)) : Prop :=
  ∃ p : Host.SentPacket, Call.letters m'.world.2 = Call.letters m.world.2 ++ [p] ∧
    p.Timely store parent m.context m.world

/-- A packet that is sent after nothing but checks and a registration. -/
theorem sendsTimely_of_sent {m₁ : Machine (ω × List Call)} {params : Params} {chainId : String}
    {c : Chainlet} {channel : String} {latest : Height} {data : Bytes} {sequence : Sequence}
    {w : ω × List Call}
    (hparams : Readable.params (Overlay.mk store m.context.updates) = .ok params)
    (hc : Readable.chainlet? (Overlay.mk store m.context.updates) chainId = .ok (some c))
    (hreached : c.ReachedOver parent.recorded params m.context.time m.world channel latest)
    (htime : m₁.context.time = m.context.time)
    (hletters : Call.letters m₁.world.2 = Call.letters m.world.2)
    (hsent : parent.recorded.sendPacket Channel.port channel
      (latest.add params.timeoutHeightDelta) (m₁.context.time.add params.timeout) data m₁.world =
        (.ok sequence, w)) (hafter : m'.world = w) : SendsTimely store parent m m' := by
  refine ⟨⟨Channel.port, channel, sequence, latest.add params.timeoutHeightDelta,
    m₁.context.time.add params.timeout, data⟩, ?_, params, chainId, c, latest, hparams, hc,
    hreached, Host.SentPacket.timedFrom rfl (by rw [htime])⟩
  rw [hafter, Parent.letters_sendPacket hsent, hletters]

/-- The parent chain is not called to write a record and to tell of it. -/
theorem world_put_emit {α : Type} [Stored.Format α] {s : Surroundings ω} {m : Machine ω}
    (entry : Entry) (a : α) (event : Event) :
    ((put entry a >>= fun _ => emit event : Execution ω Unit).run s m).2.world = m.world := by
  rw [put]
  split <;> rfl

theorem requestUpgrade_timely (msg : RequestUpgrade) :
    (requestUpgrade msg).UnsentOr ⟨store, parent.recorded, cache⟩ m
      fun _ m' => SendsTimely store parent m m' := by
  refine .bind_still still_params fun params hparams => ?_
  obtain ⟨hparams, -⟩ := params_eq_ok.1 hparams
  refine .bind_still (still_chainlet _) fun c hc => ?_
  refine .bind_still (still_requireMaintainer _ _) fun _ _ => .guarded fun _ => ?_
  refine .bind_still (still_stack _) fun stack _ => ?_
  refine .bind_still (still_enabledVersion _ _ _) fun target _ => .guarded fun _ => ?_
  refine .bind_still (still_liftVersion _) fun kind _ => .guarded fun _ => ?_
  refine .bind (keeps_registerForVersion Frame.allowsCalls_unsent c target)
    fun c' m₁ hregister hunsent => ?_
  cases kind with
  | compatible => exact .of_unsent (keeps_applyVersion Frame.allowsRecords_unsent _ _ _)
  | breaking =>
    refine .bind_still (still_consumerClient _) fun client hclient => ?_
    refine .bind_still (still_openRoute _ _) fun latest hlatest => ?_
    refine .bind_still (still_liftVersion _) fun plan _ => ?_
    refine .bind_still (still_step _ _) fun upgrade? _ => ?_
    refine send_bind_unsentOr fun sequence w hsent => ?_
    obtain ⟨consumer?, w₁, henlists, rfl, rfl⟩ := (registerForVersion_enlists hparams).1 hregister
    exact sendsTimely_of_sent hparams (chainlet_eq_ok.1 hc).1
      (.inr ⟨target, consumer?, w₁, henlists, route_iff.2 ⟨client, hclient, hlatest⟩⟩)
      (Context.time_enlist ..) (hunsent.1 ⟨parent, rfl⟩) hsent (world_put_emit ..)

theorem cancelUpgrade_timely (msg : CancelUpgrade) :
    (cancelUpgrade msg).UnsentOr ⟨store, parent.recorded, cache⟩ m
      fun _ m' => SendsTimely store parent m m' := by
  refine .bind_still still_params fun params hparams => ?_
  obtain ⟨hparams, -⟩ := params_eq_ok.1 hparams
  refine .bind_still (still_chainlet _) fun c hc => ?_
  refine .bind_still (still_requireMaintainer _ _) fun _ _ => ?_
  refine .bind_still (still_step _ _) fun upgrade _ => ?_
  refine .bind_still (still_consumerClient _) fun client hclient => ?_
  refine .bind_still (still_openRoute _ _) fun latest hlatest => ?_
  refine .bind_still (still_liftVersion _) fun plan _ => ?_
  refine send_bind_unsentOr fun sequence w hsent => ?_
  exact sendsTimely_of_sent hparams (chainlet_eq_ok.1 hc).1
    (.inl (route_iff.2 ⟨client, hclient, hlatest⟩)) rfl rfl hsent rfl

end Operation

namespace Controller

variable {ω : Type}

/-- What an operation leaves of the parent chain is what its execution leaves. -/
theorem execute_world {α : Type} (store : Store) (parent : Parent ω) (x : Execution ω α)
    (live : Live ω) : (execute store parent x live).2.world =
      (x.run ⟨store, parent, live.cache⟩ ⟨live.context, live.world, live.log⟩).2.world := by
  rcases @execute_cases _ _ store parent x live with ⟨_, _, hrun, heq⟩ | ⟨_, _, hrun, heq⟩
  · rw [hrun, heq]
  · rw [hrun, heq, settle_world]

/-- What an operation sends is timely. -/
def SendsTimely (store : Store) (parent : Parent ω) (live after : Live (ω × List Call)) : Prop :=
  ∃ letters, Call.letters after.world.2 = Call.letters live.world.2 ++ letters ∧
    ∀ p ∈ letters, p.Timely store parent live.context live.world

theorem Unsent.sendsTimely {live after : Live (ω × List Call)} (h : Unsent live after)
    (store : Store) (parent : Parent ω) : SendsTimely store parent live after :=
  ⟨[], by rw [h.letters, List.append_nil], nofun⟩

/-- **Whatever an operation sends is timely**, also if it fails afterwards. -/
theorem perform_timed (store : Store) (parent : Parent ω) (request : Request)
    (live : Live (ω × List Call)) :
    SendsTimely store parent live (perform store parent.recorded request live).2 := by
  have hhandle {msg : Message} (hrequest : request = .handle msg)
      (hsends : (Operation.ofMessage msg).UnsentOr ⟨store, parent.recorded, live.cache⟩
        ⟨live.context, live.world, live.log⟩ fun _ m' =>
          Operation.SendsTimely store parent ⟨live.context, live.world, live.log⟩ m') :
      SendsTimely store parent live (perform store parent.recorded request live).2 := by
    subst hrequest
    rcases perform_message store parent.recorded msg live with ⟨_, -, hperform⟩ | ⟨-, hperform⟩
    · rw [hperform]
      exact (Unsent.mk rfl rfl).sendsTimely store parent
    · rw [hperform, SendsTimely, execute_world]
      rcases hsends with hrel | ⟨p, hletters, htimely⟩
      · exact ⟨[], by rw [hrel.1 ⟨parent, rfl⟩, List.append_nil],
          fun _ hp => absurd hp List.not_mem_nil⟩
      · exact ⟨[p], hletters, fun p' hp' => List.mem_singleton.1 hp' ▸ htimely⟩
  rcases perform_unsent store parent request live with hunsent | ⟨msg, hmsg⟩ | ⟨msg, hmsg⟩
  · exact hunsent.sendsTimely store parent
  · exact hhandle hmsg (Operation.requestUpgrade_timely msg)
  · exact hhandle hmsg (Operation.cancelUpgrade_timely msg)

end Controller

end Chainlets
