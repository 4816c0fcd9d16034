import Chainlets.Proofs.Registry.Ensures
import Chainlets.Proofs.Registry.Moves
import Chainlets.Proofs.Upgrade.Callback
import Chainlets.Proofs.Upgrade.Unsent

/-!
# Letters

The packets that the parent chain sends to a chainlet are all about the upgrade that is pending on
it: one that schedules the upgrade, sent when it becomes pending, and ones that ask to give it up,
sent while it is. They carry its plan name and go over its channel. Nothing else that the module
does sends a packet.

A packet cannot be unsent, so what can fail comes before it is sent. Only the record of the chainlet
is written afterwards, and of that only the name of the channel has not been stored before. If the
parent chain had a channel by a name that is longer than any text that can be stored, then a packet
that goes over it would be lost. The protocol bounds the identifiers of channels far below that. The
event that tells of a packet is recorded last.

## Main definitions

* `Parent.BoundsChannel` — the parent chain bounds the name of a channel.
* `Chainlet.Letter` — a packet about the pending upgrade of a chainlet.
* `Chainlet.Dispatched` — a packet was sent over a channel that led to a chainlet then.
* `Posting` — an operation sends a letter, and tells of it.
* `Controller.Mails` — what an operation sends and tells of: nothing, one letter, or a lost one.

## Main results

* `Operation.requestUpgrade_posts`, `Operation.cancelUpgrade_posts` — **the packets that are sent
  are letters.**
* `Parent.boundsChannel_of_length_le` — the bound of the protocol is enough.
* `Controller.perform_unsent`, `Controller.perform_sends` — **and nothing else sends any.**
-/

namespace Chainlets

open Execution

/-- A packet about the pending upgrade of a chainlet, and its content. -/
structure Chainlet.Letter (c : Chainlet) (data : PacketData) (p : Host.SentPacket) : Prop where
  port : p.port = Channel.port
  content : p.data = data.encode
  about : data.chainId = c.chainId
  pending : ∃ upgrade, c.upgrade? = some upgrade ∧ p.channel = upgrade.channel ∧
    Upgrade.planName c.version upgrade.targetVersion = .ok data.plan

/-- An operation sends a packet about the pending upgrade of a chainlet: one that schedules the
upgrade, and nothing was pending before, or one that cancels it, and the record is as it was. -/
structure Chainlet.Mailed (before after : Overlay) (c : Chainlet) (data : PacketData)
    (p : Host.SentPacket) : Prop where
  letter : c.Letter data p
  found : Readable.chainlet? after c.chainId = .ok (some c)
  occasion :
    (∃ idle plan height info, data = .create c.chainId plan height info ∧
      Readable.chainlet? before c.chainId = .ok (some idle) ∧ idle.upgrade? = none) ∨
    ∃ plan, data = .cancel c.chainId plan ∧ Readable.chainlet? before c.chainId = .ok (some c)

/-- A packet was sent over a channel that led to a chainlet at that time, and that was the last
thing that the parent chain was told to do. -/
structure Chainlet.Dispatched {ω : Type} (c : Chainlet) (parent : Parent ω) (p : Host.SentPacket)
    (left : ω) : Prop where
  sent : ∃ world latest, c.ReachableOver parent world p.channel latest ∧
    parent.sendPacket p.port p.channel p.timeoutHeight p.timeoutTime p.data world =
      (.ok p.sequence, left)

/-- An operation sends a letter, and tells of it. -/
inductive Posting {ω : Type} (parent : Parent ω) (before after : Overlay) (left : ω) :
    Host.SentPacket → Event → Prop
  /-- The letter schedules an upgrade, which is pending from then on. -/
  | schedule {idle c : Chainlet} {upgrade : PendingUpgrade} {plan info : String}
      {p : Host.SentPacket} (found : Readable.chainlet? before c.chainId = .ok (some idle))
      (idle : idle.upgrade? = none) (stored : Readable.chainlet? after c.chainId = .ok (some c))
      (pending : c.upgrade? = some upgrade)
      (letter : c.Letter (.create c.chainId plan upgrade.targetHeight.number info) p)
      (dispatched : c.Dispatched parent p left) :
      Posting parent before after left p (.scheduleUpgrade c.chainId plan upgrade.targetVersion
        upgrade.targetHeight upgrade.channel p.sequence (.of p.data))
  /-- The letter asks to give the pending upgrade up, and nothing is written. -/
  | cancel {c : Chainlet} {plan : String} {p : Host.SentPacket}
      (found : Readable.chainlet? before c.chainId = .ok (some c))
      (letter : c.Letter (.cancel c.chainId plan) p) (dispatched : c.Dispatched parent p left)
      (unchanged : after = before) :
      Posting parent before after left p
        (.requestCancelUpgrade c.chainId plan p.channel p.sequence (.of p.data))

/-- Whatever is posted is a letter. -/
theorem Posting.mailed {ω : Type} {parent : Parent ω} {before after : Overlay} {left : ω}
    {p : Host.SentPacket} {notice : Event} (h : Posting parent before after left p notice) :
    ∃ c data, Chainlet.Mailed before after c data p := by
  cases h with
  | schedule found idle stored pending letter dispatched =>
    exact ⟨_, _, letter, stored, .inl ⟨_, _, _, _, rfl, found, idle⟩⟩
  | cancel found letter dispatched unchanged =>
    exact ⟨_, _, letter, unchanged ▸ found, .inr ⟨_, rfl, found⟩⟩

/-! ### The names of channels -/

/-- The greatest length of the identifier of a channel that the protocol allows, in characters. -/
def Channel.maxLength : Nat := 64

namespace Parent

variable {ω : Type} {parent : Parent ω} {channel : String}

/-- A parent chain keeps to the bound on the identifiers of channels, as far as it matters for a
channel: if it ever has the channel, then the name is one that can be stored. -/
def BoundsChannel (parent : Parent ω) (channel : String) : Prop :=
  ∀ world channelEnd, (parent.routes world).channel? Channel.port channel = some channelEnd →
    Stored.fits channel = true

/-- The same for the channel over which a request asks for an upgrade. -/
def BoundsChannelOf (parent : Parent ω) (request : Request) : Prop :=
  ∀ msg, request = .handle (.requestUpgrade msg) → parent.BoundsChannel msg.channel

/-- The bound of the protocol is enough: a text of so few characters can always be stored. -/
theorem boundsChannel_of_length_le (h : ∀ world channelEnd,
    (parent.routes world).channel? Channel.port channel = some channelEnd →
      channel.length ≤ Channel.maxLength) : parent.BoundsChannel channel := by
  intro world channelEnd hend
  have hbound := h world channelEnd hend
  have hbytes := (Utf8.length_encode_bounds channel).2
  rw [Stored.fits_text_iff]
  simp only [Channel.maxLength, Stored.maxCount] at hbound ⊢
  omega

/-- Nothing but a request for an upgrade names a channel that has not been stored. -/
theorem boundsChannelOf_cancelUpgrade (msg : CancelUpgrade) :
    parent.BoundsChannelOf (.handle (.cancelUpgrade msg)) := by
  intro _ hrequest
  cases hrequest

end Parent

/-! ### Sending -/

/-- What is on record of a packet that was sent. -/
theorem Parent.letters_sendPacket {ω : Type} {parent : Parent ω} {port channel : String}
    {timeoutHeight : Height} {timeoutTime : Time} {data : Bytes} {sequence : Sequence}
    {w w' : ω × List Call} (h : parent.recorded.sendPacket port channel timeoutHeight timeoutTime
      data w = (.ok sequence, w')) : Call.letters w'.2 =
      Call.letters w.2 ++ [⟨port, channel, sequence, timeoutHeight, timeoutTime, data⟩] := by
  have hanswer : (parent.sendPacket port channel timeoutHeight timeoutTime data w.1).1 =
      .ok sequence := congrArg Prod.fst h
  have hrecord : w'.2 = w.2 ++ [.sendPacket port channel timeoutHeight timeoutTime data
      (parent.sendPacket port channel timeoutHeight timeoutTime data w.1).1] :=
    (congrArg (·.2.2) h).symm
  rw [hrecord, hanswer, Call.letters_append]
  rfl

namespace Operation

/-- A packet is sent, and nothing else happens. -/
structure Sends {ω : Type} (parent : Parent ω) (channel : String) (data : PacketData)
    (p : Host.SentPacket) (m m' : Machine (ω × List Call)) : Prop where
  port : p.port = Channel.port
  channel : p.channel = channel
  content : p.data = data.encode
  recorded : Call.letters m'.world.2 = Call.letters m.world.2 ++ [p]
  sent : parent.recorded.sendPacket p.port p.channel p.timeoutHeight p.timeoutTime p.data m.world =
    (.ok p.sequence, m'.world)
  outside : m'.context = m.context

section Send

variable {ω : Type} {store : Store} {parent : Parent ω} {cache : TreeCache}
  {m m' : Machine (ω × List Call)}

theorem liftVersion_eq_ok {α : Type} {x : Except VersionError α} {s : Surroundings ω}
    {m m' : Machine ω} {a : α} :
    (liftM x : Execution ω α).run s m = (.ok a, m') ↔ x = .ok a ∧ m = m' := by
  change (ofExcept (x.mapError .badVersion) : Execution ω α).run s m = _ ↔ _
  rw [ofExcept_eq_ok, Except.mapError_eq_ok]

theorem run_emit {s : Surroundings ω} {m : Machine ω} (event : Event) :
    (emit event : Execution ω Unit).run s m =
      (.ok (), { m with context := { m.context with events := m.context.events ++ [event] } }) :=
  rfl

/-- Sending a packet fails and none is sent, or the parent chain sends it when it is told to, with
the timeouts that are reckoned then, and all depends on what comes after it. -/
theorem send_bind_unsentOr {α : Type} {params : Params} {latest : Height} {channel : String}
    {data : PacketData} {f : Sequence × Commitment → Execution (ω × List Call) α}
    {Q : Except Failure α → Machine (ω × List Call) → Prop}
    (hf : ∀ sequence world, parent.recorded.sendPacket Channel.port channel
        (latest.add params.timeoutHeightDelta) (m.context.time.add params.timeout) data.encode
        m.world = (.ok sequence, world) →
      let after := (f (sequence, .of data.encode)).run ⟨store, parent.recorded, cache⟩
        { m with world }
      Q after.1 after.2) :
    (send params latest channel data >>= f).UnsentOr ⟨store, parent.recorded, cache⟩ m Q := by
  let timeout := latest.add params.timeoutHeightDelta
  let deadline := m.context.time.add params.timeout
  let call := Call.sendPacket Channel.port channel timeout deadline data.encode
  cases hsent : parent.sendPacket Channel.port channel timeout deadline data.encode m.world.1 with
  | mk answer world =>
    let m' : Machine (ω × List Call) := { m with world := (world, m.world.2 ++ [call answer]) }
    have hrecorded : parent.recorded.sendPacket Channel.port channel timeout deadline data.encode
        m.world = (answer, m'.world) := by
      change ((parent.sendPacket ..).1, ((parent.sendPacket ..).2,
        m.world.2 ++ [call (parent.sendPacket ..).1])) = _
      rw [hsent]
    have hattempt : (attempt fun parent => parent.sendPacket Channel.port channel timeout deadline
        data.encode).run ⟨store, parent.recorded, cache⟩ m = (.ok answer, m') := by
      rw [run_attempt, hrecorded]
    have hcontext : (context : Execution (ω × List Call) Context).run
        ⟨store, parent.recorded, cache⟩ m = (.ok m.context, m) := rfl
    cases answer with
    | error reason =>
      have hfails : (send params latest channel data).run ⟨store, parent.recorded, cache⟩ m =
          (.error (.collaborator reason), m') :=
        (run_bind_of_ok hcontext).trans (run_bind_of_error (run_bind_of_ok hattempt))
      refine .inl ?_
      rw [run_bind_of_error hfails]
      exact ⟨fun _ => Call.letters_concat rfl _, rfl⟩
    | ok sequence =>
      have hgoes : (send params latest channel data).run ⟨store, parent.recorded, cache⟩ m =
          (.ok (sequence, .of data.encode), m') :=
        (run_bind_of_ok hcontext).trans (run_bind_of_ok (run_bind_of_ok hattempt))
      refine .inr ?_
      rw [run_bind_of_ok hgoes]
      exact hf sequence m'.world hrecorded

/-- So what comes after it comes upon a packet that was sent. -/
theorem send_unsentOr {α : Type} {params : Params} {latest : Height} {channel : String}
    {data : PacketData} {f : Sequence × Commitment → Execution (ω × List Call) α}
    {Q : Except Failure α → Machine (ω × List Call) → Prop}
    (hf : ∀ p m', Sends parent channel data p m m' →
      Q ((f (p.sequence, .of p.data)).run ⟨store, parent.recorded, cache⟩ m').1
        ((f (p.sequence, .of p.data)).run ⟨store, parent.recorded, cache⟩ m').2) :
    (send params latest channel data >>= f).UnsentOr ⟨store, parent.recorded, cache⟩ m Q :=
  send_bind_unsentOr fun sequence world hsent =>
    hf ⟨Channel.port, channel, sequence, latest.add params.timeoutHeightDelta,
        m.context.time.add params.timeout, data.encode⟩ { m with world }
      ⟨rfl, rfl, rfl, Parent.letters_sendPacket hsent, hsent, rfl⟩

/-- What is handed on of a chainlet when it is registered for a version. -/
theorem registerForVersion_eq_ok {s : Surroundings ω} {m m' : Machine ω} {c c' : Chainlet}
    {target : StackVersion}
    (h : (registerForVersion c target).run s m = (.ok c', m')) :
    c'.chainId = c.chainId ∧ c'.version = c.version ∧ c'.upgrade? = c.upgrade? ∧
      (Stored.fits c = true → Stored.fits c' = true) := by
  rw [registerForVersion] at h
  split at h
  · obtain ⟨rfl, -⟩ := pure_eq_ok.1 h
    exact ⟨rfl, rfl, rfl, id⟩
  · obtain ⟨params, -, h⟩ := still_params.bind_ok h
    obtain ⟨opened, -, h⟩ := still_context.bind_ok h
    obtain ⟨consumer, m₁, hregister, h⟩ := bind_eq_ok.1 h
    obtain ⟨rfl, -⟩ := pure_eq_ok.1 h
    refine ⟨rfl, rfl, rfl, fun hfits => ?_⟩
    -- The name of the consumer has been stored already, as that of one that waits.
    obtain ⟨consumer', m₂, -, hregister⟩ := bind_eq_ok.1 hregister
    obtain ⟨_, m₃, -, hregister⟩ := bind_eq_ok.1 hregister
    obtain ⟨_, m₄, -, hregister⟩ := bind_eq_ok.1 hregister
    obtain ⟨_, m₅, -, hregister⟩ := bind_eq_ok.1 hregister
    obtain ⟨_, m₆, hput, hregister⟩ := bind_eq_ok.1 hregister
    obtain ⟨_, m₇, -, hregister⟩ := bind_eq_ok.1 hregister
    obtain ⟨rfl, -⟩ := pure_eq_ok.1 hregister
    have hconsumer : Stored.fits consumer' = true := (put_eq_ok.1 hput).1
    simp only [Stored.fits, Bool.and_eq_true] at hfits ⊢
    exact ⟨⟨hfits.1.1, hconsumer⟩, hfits.2⟩

/-- A version of a stack that was stored can be stored. -/
theorem fits_enabled? {stack : Stack} (hstack : Stored.fits stack = true) {version : String}
    {v : StackVersion} (hv : stack.enabled? version = some v) :
    Stored.fits v.version = true := by
  have hmem : v ∈ stack.versions := List.mem_of_find?_eq_some (Option.eq_some_of_filter_eq_some hv)
  simp only [Stored.fits, Bool.and_eq_true, List.all_eq_true] at hstack ⊢
  exact (hstack.2.2 v hmem).1.2

/-- The record of a chainlet that is asked to take part in an upgrade. -/
theorem fits_scheduled {c : Chainlet} {upgrade : PendingUpgrade} (hc : Stored.fits c = true)
    (htarget : Stored.fits upgrade.targetVersion = true)
    (hchannel : Stored.fits upgrade.channel = true) :
    Stored.fits { c with upgrade? := some upgrade } = true := by
  have hupgrade : Stored.fits (some upgrade) = true := Bool.and_eq_true_iff.2 ⟨htarget, hchannel⟩
  simp only [Stored.fits, Bool.and_eq_true] at hc ⊢
  exact ⟨hc.1, hupgrade⟩

/-- How a request ends that sends a packet: the packet is posted, or the request fails afterwards
and the packet is lost, for which there has to be a cause. -/
def Ends (store : Store) (parent : Parent ω) (cause : Prop) (m : Machine (ω × List Call))
    (result : Except Failure Unit) (m' : Machine (ω × List Call)) : Prop :=
  ∃ p, Call.letters m'.world.2 = Call.letters m.world.2 ++ [p] ∧
    (result = .ok () ∧ (∃ notice,
      Event.notices m'.context.events = Event.notices m.context.events ++ [notice] ∧
        Posting parent.recorded (Overlay.mk store m.context.updates)
          (Overlay.mk store m'.context.updates) m'.world p notice) ∨
    (∃ failure, result = .error failure) ∧ cause)

/-- A request for an upgrade sends nothing, or leaves an upgrade pending where none was and sends a
letter about it. The letter is lost only if the name of the channel is not bounded. -/
theorem requestUpgrade_posts {reg : Registry} (hreg : reg.Filed)
    (hshows : reg.ShownBy (Overlay.mk store m.context.updates)) (msg : RequestUpgrade) :
    (requestUpgrade msg).UnsentOr ⟨store, parent.recorded, cache⟩ m
      (Ends store parent (¬ parent.recorded.BoundsChannel msg.channel) m) := by
  refine .bind_still still_params fun params _ => ?_
  refine .bind_still (still_chainlet _) fun c hread => ?_
  obtain ⟨hfound, -⟩ := chainlet_eq_ok.1 hread
  refine .bind_still (still_requireMaintainer _ _) fun _ _ => .guarded fun hidle => ?_
  refine .bind_still (still_stack _) fun stack hstack => ?_
  refine .bind_still (still_enabledVersion _ _ _) fun target htarget => .guarded fun _ => ?_
  refine .bind_still (still_liftVersion _) fun kind _ => .guarded fun _ => ?_
  refine .bind (keeps_registerForVersion Frame.allowsCalls_unsent c target)
    fun c' m₁ hregister hunsent => ?_
  cases kind with
  | compatible => exact .of_unsent (keeps_applyVersion Frame.allowsRecords_unsent _ _ _)
  | breaking =>
    refine .bind_still (still_consumerClient _) fun client hclient => ?_
    refine .bind_still (still_openRoute _ _) fun latest hlatest => ?_
    refine .bind_still (still_liftVersion _) fun plan hplan => ?_
    refine .bind_still (still_step _ _) fun upgrade? hstep => send_unsentOr fun p m₂ hsends => ?_
    have hheld := hshows.chainlet?_eq_some_iff.1 hfound
    have hid := hreg.chainlets _ c hheld
    obtain ⟨hsame, -, hidle', hfits⟩ := registerForVersion_eq_ok hregister
    have hidle : c.upgrade? = none := by simpa using hidle
    obtain ⟨hpending, -⟩ := step_eq_ok.1 hstep
    rw [hidle', hidle] at hpending
    obtain rfl := Except.ok.inj hpending
    set upgrade : PendingUpgrade := ⟨target.version, _, msg.channel⟩
    set scheduled : Chainlet := { c' with upgrade? := some upgrade } with hscheduled
    have hletters : Call.letters m₂.world.2 = Call.letters m.world.2 ++ [p] := by
      rw [hsends.recorded, hunsent.1 ⟨parent, rfl⟩]
    have hletter : scheduled.Letter
        (.create scheduled.chainId plan upgrade.targetHeight.number target.image) p :=
      ⟨hsends.port, hsends.content, rfl, upgrade, rfl, hsends.channel,
        (liftVersion_eq_ok.1 hplan).1⟩
    have hroute := route_iff.2 ⟨client, hclient, hlatest⟩
    have hdispatched : scheduled.Dispatched parent.recorded p m₂.world := by
      refine ⟨⟨m₁.world, latest, ⟨?_⟩, hsends.sent⟩⟩
      rw [hsends.channel]
      exact hroute.route
    by_cases hstored : Stored.fits scheduled = true
    · have hput : (putChainlet scheduled).run ⟨store, parent.recorded, cache⟩ m₂ = (.ok (), _) :=
        put_eq_ok.2 ⟨hstored, rfl⟩
      rw [run_bind_of_ok hput, run_emit]
      refine ⟨p, hletters, .inl ⟨rfl, _, ?_, .schedule ?_ hidle ?_ rfl hletter hdispatched⟩⟩
      · rw [Event.notices_append, hsends.outside, hunsent.2]
        rfl
      · rw [show scheduled.chainId = msg.chainId from hsame.trans hid]
        exact hfound
      · exact Registry.ShownBy.read?_of_insert _ _ _ hstored
    · have hput : (putChainlet scheduled).run ⟨store, parent.recorded, cache⟩ m₂ =
          (.error (.storage (.unencodable (.chainlet scheduled.chainId))), m₂) := by
        rw [putChainlet, put, if_neg hstored, run_fail]
      rw [run_bind_of_error hput]
      obtain ⟨_, _, connection, -, -, hend, -⟩ := hroute.route
      refine ⟨p, hletters, .inr ⟨⟨_, rfl⟩, fun hbounds => hstored ?_⟩⟩
      -- All that the record is made of has been stored before, except for the channel.
      obtain ⟨-, hstack⟩ := stack_of_shows hshows.catalog hstack
      have htarget := fits_enabled? (hshows.catalog.fits hstack) (enabledVersion_eq_ok.1 htarget).1
      exact fits_scheduled (hfits (hshows.chainlets.fits hheld)) htarget (hbounds _ _ hend)

/-- A request to give an upgrade up sends nothing, or sends a letter about the pending upgrade and
leaves the writes as they are. -/
theorem cancelUpgrade_posts {reg : Registry} (hreg : reg.Filed)
    (hshows : reg.ShownBy (Overlay.mk store m.context.updates)) (msg : CancelUpgrade) :
    (cancelUpgrade msg).UnsentOr ⟨store, parent.recorded, cache⟩ m
      (Ends store parent False m) := by
  refine .bind_still still_params fun params _ => ?_
  refine .bind_still (still_chainlet _) fun c hread => ?_
  obtain ⟨hfound, -⟩ := chainlet_eq_ok.1 hread
  have hid := hreg.chainlets _ c (hshows.chainlet?_eq_some_iff.1 hfound)
  refine .bind_still (still_requireMaintainer _ _) fun _ _ => ?_
  refine .bind_still (still_step _ _) fun upgrade hstep => ?_
  refine .bind_still (still_consumerClient _) fun client hclient => ?_
  refine .bind_still (still_openRoute _ _) fun latest hlatest => ?_
  refine .bind_still (still_liftVersion _) fun plan hplan => send_unsentOr fun p m₁ hsends => ?_
  have hpending : c.upgrade? = some upgrade := by
    obtain ⟨hstep, -⟩ := step_eq_ok.1 hstep
    cases hupgrade : c.upgrade? with
    | none => rw [hupgrade] at hstep; cases hstep
    | some upgrade' => rw [hupgrade] at hstep; cases hstep; rfl
  have hletter : c.Letter (.cancel c.chainId plan) p :=
    ⟨hsends.port, hsends.content, rfl, upgrade, hpending, hsends.channel,
      (liftVersion_eq_ok.1 hplan).1⟩
  have hroute := route_iff.2 ⟨client, hclient, hlatest⟩
  have hdispatched : c.Dispatched parent.recorded p m₁.world := by
    refine ⟨⟨m.world, latest, ⟨?_⟩, hsends.sent⟩⟩
    rw [hsends.channel]
    exact hroute.route
  rw [run_emit]
  refine ⟨p, hsends.recorded, .inl ⟨rfl, _, ?_, .cancel (hid ▸ hfound) hletter hdispatched ?_⟩⟩
  · rw [Event.notices_append, hsends.outside, ← hsends.channel]
    rfl
  · change Overlay.mk store m₁.context.updates = _
    rw [hsends.outside]

end Send

end Operation

/-! ### Operations of the controller -/

namespace Controller

variable {ω : Type} {store : Store} {parent : Parent ω} {reg : Registry}

/-- An operation sends no packet, and tells of none. -/
structure Unsent (live after : Live (ω × List Call)) : Prop where
  letters : Call.letters after.world.2 = Call.letters live.world.2
  notices : Event.notices after.context.events = Event.notices live.context.events

theorem execute_unsent {α : Type} {x : Execution (ω × List Call) α} (h : Keeps Frame.unsent x)
    (live : Live (ω × List Call)) : Unsent live (execute store parent.recorded x live).2 := by
  rcases @execute_cases _ _ store parent.recorded x live with
    ⟨a, m', hrun, hresult⟩ | ⟨failure, m', hrun, hresult⟩
  · obtain ⟨hletters, hnotices⟩ := h.rel hrun
    rw [hresult]
    exact ⟨hletters ⟨parent, rfl⟩, hnotices⟩
  · rw [hresult]
    refine ⟨?_, ?_⟩
    · rw [settle_world]
      exact (h.rel hrun).1 ⟨parent, rfl⟩
    · rw [(settle_context failure _).1]
      rfl

/-- Callbacks send nothing. -/
theorem callback_unsent (cb : Callback) (live : Live (ω × List Call)) :
    Unsent live (perform store parent.recorded cb.request live).2 := by
  cases cb with
  | received packet =>
    have hunsent := @execute_unsent _ store parent _ _
      (Operation.keeps_receive Frame.allowsRecords_unsent packet) live
    change Unsent live (receive store parent.recorded packet live).2
    rw [receive]
    split
    next heq => rw [heq] at hunsent; exact hunsent
    next heq => rw [heq] at hunsent; exact ⟨hunsent.letters, hunsent.notices⟩
  | answered packet answer =>
    exact execute_unsent
      ((Operation.keeps_acknowledged Frame.allowsRecords_unsent packet answer).map _) live
  | expired packet =>
    exact execute_unsent ((Operation.keeps_timedOut Frame.allowsRecords_unsent packet).map _) live

/-- What an operation sends, and what it tells of that. -/
inductive Mails {ω : Type} (parent : Parent ω) (before after : Overlay) (left : ω)
    (request : Request) (result : Except Failure Response) :
    List Host.SentPacket → List Event → Prop
  | nothing : Mails parent before after left request result [] []
  | posted {p : Host.SentPacket} {notice : Event} (done : result = .ok .done)
      (posting : Posting parent before after left p notice) :
      Mails parent before after left request result [p] [notice]
  /-- The packet is lost, because the name of its channel is not bounded. -/
  | lost {p : Host.SentPacket} (failed : ∃ failure, result = .error failure)
      (unbounded : ¬ parent.BoundsChannelOf request) :
      Mails parent before after left request result [p] []

/-- What an operation adds to the record of a parent chain, and to the events of the context. -/
def Sends (store : Store) (parent : Parent ω) (request : Request) (live : Live (ω × List Call))
    (result : Except Failure Response) (after : Live (ω × List Call)) : Prop :=
  ∃ letters notices, Call.letters after.world.2 = Call.letters live.world.2 ++ letters ∧
    Event.notices after.context.events = Event.notices live.context.events ++ notices ∧
    Mails parent.recorded (Overlay.mk store live.context.updates)
      (Overlay.mk store after.context.updates) after.world request result letters notices

theorem Unsent.sends {live after : Live (ω × List Call)} (h : Unsent live after)
    (request : Request) (result : Except Failure Response) :
    Sends store parent request live result after :=
  ⟨[], [], by rw [h.letters, List.append_nil], by rw [h.notices, List.append_nil], .nothing⟩

/-- An operation whose execution sends nothing, or ends with a packet. -/
theorem execute_sends {x : Execution (ω × List Call) Unit} {live : Live (ω × List Call)}
    {cause : Prop} {request : Request}
    (hx : x.UnsentOr ⟨store, parent.recorded, live.cache⟩ ⟨live.context, live.world, live.log⟩
      (Operation.Ends store parent cause ⟨live.context, live.world, live.log⟩))
    (hcause : cause → ¬ parent.recorded.BoundsChannelOf request) :
    let after := execute store parent.recorded x live
    Sends store parent request live (after.1.map fun _ => .done) after.2 := by
  rcases @execute_cases _ _ store parent.recorded x live with
    ⟨a, m', hrun, hresult⟩ | ⟨failure, m', hrun, hresult⟩
  · rw [hresult]
    rw [UnsentOr, hrun] at hx
    rcases hx with ⟨hletters, hnotices⟩ |
      ⟨p, hsent, ⟨-, notice, hnotice, hposting⟩ | ⟨⟨_, hfailed⟩, -⟩⟩
    · exact (Unsent.mk (hletters ⟨parent, rfl⟩) hnotices).sends _ _
    · exact ⟨[p], [notice], hsent, hnotice, .posted rfl hposting⟩
    · cases hfailed
  · rw [hresult]
    -- Events are rolled back, and packets are not.
    have hevents : Event.notices (settle failure { live with
        context := live.context.rollback m'.context, world := m'.world, log := m'.log
        }).context.events = Event.notices live.context.events := by
      rw [(settle_context failure _).1]
      rfl
    rw [UnsentOr, hrun] at hx
    rcases hx with ⟨hletters, -⟩ | ⟨p, hsent, ⟨hdone, -⟩ | ⟨-, hlost⟩⟩
    · refine (Unsent.mk ?_ hevents).sends _ _
      rw [settle_world]
      exact hletters ⟨parent, rfl⟩
    · cases hdone
    · refine ⟨[p], [], ?_, by rw [hevents, List.append_nil], .lost ⟨failure, rfl⟩ (hcause hlost)⟩
      rw [settle_world]
      exact hsent

/-- An operation sends nothing, unless it is a request for an upgrade or to give one up. -/
theorem perform_unsent (store : Store) (parent : Parent ω) (request : Request)
    (live : Live (ω × List Call)) : Unsent live (perform store parent.recorded request live).2 ∨
      (∃ msg, request = .handle (.requestUpgrade msg)) ∨
      ∃ msg, request = .handle (.cancelUpgrade msg) := by
  cases request with
  | importGenesis genesis =>
    have himport : Keeps Frame.unsent (do Operation.importGenesis genesis; return .done :
        Execution (ω × List Call) Response) :=
      (unsent_of_mute (Operation.keeps_importGenesis Frame.allowsStacks_mute genesis)).bind
        fun _ => Keeps.pure _
    exact .inl (execute_unsent himport live)
  | handle msg =>
    have hhandle {x : Execution (ω × List Call) Unit} (hmsg : Operation.ofMessage msg = x)
        (hx : Keeps Frame.unsent x) :
        Unsent live (perform store parent.recorded (.handle msg) live).2 := by
      subst hmsg
      rcases perform_message store parent.recorded msg live with ⟨_, -, hperform⟩ | ⟨-, hperform⟩
      · rw [hperform]
        exact Unsent.mk rfl rfl
      · rw [hperform]
        exact execute_unsent hx live
    cases msg with
    | createStack msg =>
      have hmute := Operation.keeps_createStack (Frame.allowsStacks_mute (ω := ω × List Call)) msg
      exact .inl (hhandle rfl (unsent_of_mute hmute))
    | addVersion msg =>
      have hmute := Operation.keeps_addVersion (Frame.allowsStacks_mute (ω := ω × List Call)) msg
      exact .inl (hhandle rfl (unsent_of_mute hmute))
    | disableVersion msg =>
      have hmute :=
        Operation.keeps_disableVersion (Frame.allowsStacks_mute (ω := ω × List Call)) msg
      exact .inl (hhandle rfl (unsent_of_mute hmute))
    | launch msg =>
      exact .inl (hhandle rfl (Operation.keeps_launch (Frame.allowsCalls_unsent (ω := ω)) msg))
    | requestUpgrade msg => exact .inr (.inl ⟨msg, rfl⟩)
    | cancelUpgrade msg => exact .inr (.inr ⟨msg, rfl⟩)
  | setStatus chainId status =>
    have hset := Operation.keeps_setStatus (Frame.allowsRecords_unsent (ω := ω)) chainId status
    exact .inl (execute_unsent (hset.map _) live)
  | receive packet => exact .inl (callback_unsent (.received packet) live)
  | acknowledged packet answer => exact .inl (callback_unsent (.answered packet answer) live)
  | timedOut packet => exact .inl (callback_unsent (.expired packet) live)
  | beginBlock =>
    have hblock : Keeps Frame.unsent (do Operation.beginBlock; return .done :
        Execution (ω × List Call) Response) :=
      (Operation.keeps_beginBlock Frame.allowsInits_unsent).bind fun _ => Keeps.pure _
    exact .inl (execute_unsent hblock live)

/-- **What is sent is a letter about a pending upgrade**, and an event tells of it; only if the
parent chain does not bound the name of its channel, it is lost. -/
theorem perform_sends (hreg : reg.Filed) (request : Request) (live : Live (ω × List Call))
    (hshows : reg.ShownBy (Overlay.mk store live.context.updates)) :
    let after := perform store parent.recorded request live
    Sends store parent request live after.1 after.2 := by
  intro after
  have hhandle {msg : Message} (hrequest : request = .handle msg)
      (hsends : let after := execute store parent.recorded (Operation.ofMessage msg) live
        Sends store parent request live (after.1.map fun _ => .done) after.2) :
      Sends store parent request live after.1 after.2 := by
    subst hrequest
    rcases perform_message store parent.recorded msg live with ⟨_, -, hperform⟩ | ⟨-, hperform⟩
    · rw [show after = _ from hperform]
      exact (Unsent.mk rfl rfl).sends _ _
    · rw [show after = _ from hperform]
      exact hsends
  rcases perform_unsent store parent request live with hunsent | ⟨msg, hmsg⟩ | ⟨msg, hmsg⟩
  · exact hunsent.sends _ _
  · exact hhandle hmsg
      (execute_sends (Operation.requestUpgrade_posts hreg hshows msg)
        fun hunbounded hbounds => hunbounded (hbounds msg hmsg))
  · exact hhandle hmsg
      (execute_sends (Operation.cancelUpgrade_posts hreg hshows msg) False.elim)

end Controller

end Chainlets
