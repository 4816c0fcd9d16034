import Chainlets.Proofs.Node.Journal
import Chainlets.Proofs.Node.Stale

/-!
# Packets and pending upgrades

A packet cannot be unsent, and the plan name that it carries is not stored. So packets and records
agree only if every operation that sends one does so at the right moment, and if the plan name that
is computed when an upgrade is to be given up is still the one under which it was scheduled. The
first is a matter of single operations: each sends at most one packet, and one that fails none. The
second needs the run: while an upgrade is pending the chainlet keeps its version, so the packet that
scheduled the upgrade has the plan name and the channel of every packet that asks to give it up. An
upgrade that the genesis state came with was not scheduled by a packet of this run.

The name of the channel is first written when the packet has been sent already. If it were longer
than any text that can be stored, which takes `2 ^ 32` bytes, the request would fail with its packet
sent. So the parent chain has to bound the names of its channels, as the protocol does.

## Main definitions

* `Deed.outbox` — the packets that an operation sends.
* `Deed.Fails` — an operation fails.
* `Deed.OnRecord` — what is known of every operation of a run on record.
* `Host.SentPacket.Revokes` — a packet asks to give up what another one scheduled.

## Main results

* `Deed.OnRecord.pends_cases` — what is pending afterwards was pending before, or its packet was
  sent.
* `Deed.OnRecord.opens_iff` — an upgrade becomes pending exactly when its packet is sent.
* `Node.outbox_run` — **packets and pending upgrades agree.**
-/

namespace Chainlets

variable {ω : Type}

/-! ### Operations -/

/-- An upgrade is pending on a chainlet, which runs a version meanwhile. -/
def Readable.Pends (o : Overlay) (chainId version : String) (upgrade : PendingUpgrade) : Prop :=
  ∃ c, Readable.chainlet? o chainId = .ok (some c) ∧ c.version = version ∧
    c.upgrade? = some upgrade

theorem Registry.ShownBy.pends_iff {reg : Registry} {o : Overlay} (h : reg.ShownBy o)
    {chainId version : String} {upgrade : PendingUpgrade} :
    Readable.Pends o chainId version upgrade ↔ reg.Pends chainId version upgrade := by
  simp only [Readable.Pends, Registry.Pends, h.chainlet?_eq_some_iff]

theorem Overlay.SameAs.pends_iff {o o' : Overlay} (h : o.SameAs o') {chainId version : String}
    {upgrade : PendingUpgrade} : Readable.Pends o chainId version upgrade ↔
      Readable.Pends o' chainId version upgrade := by
  rw [Readable.Pends, Readable.Pends, h.chainlet?_eq]

/-- A packet asks to give up the upgrade that another one scheduled: they name one chainlet and one
plan, and go over one channel. -/
def Host.SentPacket.Revokes (p q : Host.SentPacket) : Prop :=
  p.channel = q.channel ∧ ∃ chainId plan height info,
    p.data = (PacketData.cancel chainId plan).encode ∧
    q.data = (PacketData.create chainId plan height info).encode

namespace Deed

/-- The packets that an operation sends with success on a parent chain on record, whether or not it
succeeds itself. -/
def outbox (d : Deed (ω × List Call)) : List Host.SentPacket := Call.letters d.left.world.2

/-- An operation fails. A packet that arrives is then answered with the failure. -/
def Fails (d : Deed ω) : Prop :=
  ∃ failure, Controller.FailsOver d.store d.parent d.request d.live failure

/-- What an operation does is told by its events, unless it fails and has done nothing. -/
def Acts (d : Deed ω) : Prop :=
  ∀ reg : Registry, reg.Filed → reg.ShownBy d.before → d.request.isImport = false →
    Controller.Acted reg d.store d.live d.left
      (Controller.FailsOver d.store d.parent d.request d.live)

/-- An operation schedules an upgrade of a chainlet, and sends the packet that says so. -/
structure Invites (d : Deed (ω × List Call)) (c : Chainlet) (upgrade : PendingUpgrade)
    (p : Host.SentPacket) : Prop where
  sent : d.outbox = [p]
  opens : d.Opens c.chainId
  stored : Readable.chainlet? d.after c.chainId = .ok (some c)
  pending : c.upgrade? = some upgrade
  letter : ∃ plan info, c.Letter (.create c.chainId plan upgrade.targetHeight.number info) p

/-- What is known of every operation of a run on record. -/
structure OnRecord (d : Deed (ω × List Call)) : Prop where
  orderly : Orderly d.before
  isImport : d.request.isImport = false
  acts : d.Acts
  recorded : ∃ (parent : Parent ω) (world : ω), d.parent = parent.recorded ∧
    d.live.world = (world, [])

variable {d : Deed (ω × List Call)} {chainId version : String} {upgrade : PendingUpgrade}

theorem Fails.result_ne (h : d.Fails) : d.result ≠ .ok .done := by
  obtain ⟨store, parent, request, live⟩ := d
  obtain ⟨failure, hfails⟩ := h
  intro hdone
  cases request with
  | receive packet => cases hdone
  | _ => exact absurd (hfails.symm.trans hdone) nofun

/-- What an operation sends, and what it tells of that. -/
theorem OnRecord.exists_mails (h : d.OnRecord) : ∃ notices,
    Event.notices d.left.context.events = Event.notices d.live.context.events ++ notices ∧
      Controller.Mails d.parent d.before d.after d.left.world d.request d.result d.outbox
        notices := by
  obtain ⟨store, parent', request, live⟩ := d
  obtain ⟨parent, world, hparent, hworld⟩ := h.recorded
  obtain rfl : parent' = parent.recorded := hparent
  obtain ⟨reg, hreg, hshows⟩ := h.orderly
  obtain ⟨letters, notices, hletters, hnotices, hmails⟩ :=
    @Controller.perform_sends _ store parent reg hreg.filed request live hshows
  rw [show live.world.2 = [] from congrArg Prod.snd hworld] at hletters
  obtain rfl : outbox ⟨store, parent.recorded, request, live⟩ = letters := hletters
  exact ⟨notices, hnotices, hmails⟩

theorem OnRecord.length_outbox_le (h : d.OnRecord) : d.outbox.length ≤ 1 := by
  obtain ⟨notices, -, hmails⟩ := h.exists_mails
  generalize d.outbox = letters at hmails
  cases hmails <;> simp

/-- What is sent is posted: no packet is lost over the name of its channel. -/
theorem OnRecord.exists_posting (h : d.OnRecord) (hbounds : d.parent.BoundsChannelOf d.request)
    {p : Host.SentPacket} (hp : p ∈ d.outbox) : d.result = .ok .done ∧
      ∃ notice, Posting d.parent d.before d.after d.left.world p notice := by
  obtain ⟨notices, -, hmails⟩ := h.exists_mails
  generalize d.outbox = letters at hmails hp
  cases hmails with
  | nothing => cases hp
  | lost _ unbounded => exact absurd hbounds unbounded
  | posted done posting =>
    obtain rfl := List.mem_singleton.1 hp
    exact ⟨done, _, posting⟩

/-- An operation that fails sends nothing. -/
theorem OnRecord.outbox_of_fails (h : d.OnRecord) (hbounds : d.parent.BoundsChannelOf d.request)
    (hfails : d.Fails) : d.outbox = [] :=
  List.eq_nil_iff_forall_not_mem.2 fun _ hp =>
    hfails.result_ne (h.exists_posting hbounds hp).1

/-- A record on which nothing is pending gives way to one on which something is. -/
theorem opens_of_stored {c idle : Chainlet}
    (hfound : Readable.chainlet? d.before c.chainId = .ok (some idle))
    (hidle : idle.upgrade? = none)
    (hstored : Readable.chainlet? d.after c.chainId = .ok (some c))
    (hpending : c.upgrade? = some upgrade) : d.Opens c.chainId := by
  refine ⟨?_, c, upgrade, hstored, hpending⟩
  rintro ⟨found, upgrade', hfound', hpending'⟩
  obtain rfl : idle = found := Option.some.inj (Except.ok.inj (hfound.symm.trans hfound'))
  rw [hidle] at hpending'
  cases hpending'

/-- **What is pending afterwards was pending before, at the same version, or its packet was
sent.** -/
theorem OnRecord.pends_cases (h : d.OnRecord)
    (hpends : Readable.Pends d.after chainId version upgrade) :
    Readable.Pends d.before chainId version upgrade ∨
      ∃ c p, d.Invites c upgrade p ∧ c.chainId = chainId ∧ c.version = version := by
  obtain ⟨notices, hnotices, hmails⟩ := h.exists_mails
  obtain ⟨reg, hreg, hshows⟩ := h.orderly
  obtain ⟨events, reg', hevents, hadded, hshows'⟩ :=
    (h.acts reg hreg.filed hshows h.isImport).acts
  have hpends' : reg'.Pends chainId version upgrade := hshows'.pends_iff.1 hpends
  rcases hevents.pends hpends' with hbefore | ⟨plan, sequence, commitment, hmem⟩
  · exact .inl (hshows.pends_iff.2 hbefore)
  · -- The event that tells of it is the one that was recorded when the packet was posted.
    rw [hadded, Event.notices_append] at hnotices
    have hnotice : .scheduleUpgrade chainId plan upgrade.targetVersion upgrade.targetHeight
        upgrade.channel sequence commitment ∈ notices := by
      rw [← List.append_cancel_left hnotices, Event.notices]
      exact List.mem_filter.2 ⟨hmem, rfl⟩
    generalize hsent : d.outbox = letters at hmails
    cases hmails with
    | nothing => cases hnotice
    | lost => cases hnotice
    | posted done posting =>
      have htold := List.mem_singleton.1 hnotice
      cases posting with
      | cancel => cases htold
      | schedule found idle stored pending letter dispatched =>
        obtain ⟨rfl, -⟩ := Event.scheduleUpgrade.inj htold
        have hopens := opens_of_stored found idle stored pending
        obtain ⟨c', hfound, hversion, hpending⟩ := hpends
        obtain rfl := Option.some.inj (Except.ok.inj (stored.symm.trans hfound))
        obtain rfl := Option.some.inj (pending.symm.trans hpending)
        exact .inr ⟨_, _, ⟨hsent, hopens, stored, pending, _, _, letter⟩, rfl, hversion⟩

/-- **An upgrade becomes pending exactly when the packet that schedules it is sent.** -/
theorem OnRecord.opens_iff (h : d.OnRecord) (hbounds : d.parent.BoundsChannelOf d.request)
    (chainId : String) :
    d.Opens chainId ↔ ∃ p ∈ d.outbox, ∃ plan height info,
      p.data = (PacketData.create chainId plan height info).encode := by
  constructor
  · rintro ⟨hbefore, c, upgrade, hfound, hpending⟩
    rcases h.pends_cases ⟨c, hfound, rfl, hpending⟩ with
      ⟨c', hfound', -, hpending'⟩ | ⟨c', p, hinvites, rfl, -⟩
    · exact absurd ⟨c', upgrade, hfound', hpending'⟩ hbefore
    · obtain ⟨plan, info, hletter⟩ := hinvites.letter
      exact ⟨p, by simp [hinvites.sent], plan, _, info, hletter.content⟩
  · rintro ⟨p, hp, plan, height, info, hdata⟩
    obtain ⟨-, notice, hposting⟩ := h.exists_posting hbounds hp
    cases hposting with
    | schedule found idle stored pending letter dispatched =>
      obtain ⟨rfl, -⟩ := PacketData.create.inj
        (PacketData.encode_injective (hdata.symm.trans letter.content))
      exact opens_of_stored found idle stored pending
    | cancel found letter dispatched unchanged =>
      cases PacketData.encode_injective (hdata.symm.trans letter.content)

end Deed

/-! ### Runs -/

/-- The upgrade that is pending on a chainlet was scheduled by a packet that another one revokes,
and has been pending since then, at the same version; or it came with the genesis state and has been
pending ever since. -/
def Chainlet.ScheduledIn (c : Chainlet) (genesis : Genesis) (upgrade : PendingUpgrade)
    (front : List (Deed (ω × List Call))) (p : Host.SentPacket) : Prop :=
  (∃ early e late q, front = early ++ e :: late ∧ e.Opens c.chainId ∧ q ∈ e.outbox ∧ p.Revokes q ∧
    ∀ d ∈ e :: late, Readable.Pends d.after c.chainId c.version upgrade) ∨
  (∃ c' ∈ genesis.chainlets, c'.chainId = c.chainId ∧ c'.version = c.version ∧
    c'.upgrade? = some upgrade) ∧
      ∀ d ∈ front, Readable.Pends d.after c.chainId c.version upgrade

/-- Under what terms an upgrade is to be given up: those under which it was scheduled. -/
theorem Chainlet.Letter.scheduledIn {genesis : Genesis} (hgenesis : genesis.WellFormed)
    {front : List (Deed (ω × List Call))} {o₀ o : Overlay} {reg₀ : Registry}
    (hstart : reg₀ = genesis.registry ∨ reg₀ = Registry.empty) (hshows : reg₀.ShownBy o₀)
    (hlink : Deed.Link o₀ front o) (hfront : ∀ d ∈ front, d.OnRecord) {c : Chainlet}
    {upgrade : PendingUpgrade} (hfound : Readable.chainlet? o c.chainId = .ok (some c))
    (hpending : c.upgrade? = some upgrade) {plan : String} {p : Host.SentPacket}
    (hletter : c.Letter (.cancel c.chainId plan) p) :
    c.ScheduledIn genesis upgrade front p := by
  have hpends : Readable.Pends o c.chainId c.version upgrade := ⟨c, hfound, rfl, hpending⟩
  rcases hlink.since (fun o o' hsame => hsame.pends_iff) hpends with
    ⟨hbegin, hall⟩ | ⟨early, e, late, rfl, hbefore, hall⟩
  · refine .inr ⟨?_, hall⟩
    obtain ⟨c', hget, hversion, hpending'⟩ := hshows.pends_iff.1 hbegin
    rcases hstart with rfl | rfl
    · have hchecked := Genesis.check_ok hgenesis.accepted
      obtain ⟨hmem, hid⟩ := (OrderedMap.get?_fileBy_eq_some_iff hchecked.chainIds).1 hget
      exact ⟨c', hmem, hid, hversion, hpending'⟩
    · cases hget
  · refine .inl ⟨early, e, late, ?_⟩
    rcases (hfront e (by simp)).pends_cases (hall e List.mem_cons_self) with
      hpends | ⟨c', q, hinvites, hid, hversion⟩
    · exact absurd hpends hbefore
    · obtain ⟨plan', info, hscheduling⟩ := hinvites.letter
      obtain ⟨u, hu, hchannel, hplan⟩ := hletter.pending
      obtain ⟨u', hu', hchannel', hplan'⟩ := hscheduling.pending
      obtain rfl : upgrade = u := Option.some.inj (hpending.symm.trans hu)
      obtain rfl : upgrade = u' := Option.some.inj (hinvites.pending.symm.trans hu')
      rw [hversion] at hplan'
      obtain rfl : plan = plan' := Except.ok.inj (hplan.symm.trans hplan')
      refine ⟨q, rfl, hid ▸ hinvites.opens, by simp [hinvites.sent], ?_, hall⟩
      refine ⟨hchannel.trans hchannel'.symm, c.chainId, plan, upgrade.targetHeight.number, info,
        hletter.content, ?_⟩
      rw [← hid]
      exact hscheduling.content

namespace Node

theorem onRecord_run {genesis : Genesis} (hgenesis : genesis.WellFormed) (height : Height)
    (time : Time) (parent : Parent ω) (world : ω) {actions : List (Action ω)}
    (himport : ∀ action ∈ actions, action.isImport = false) :
    ∀ d ∈ ((Chronicle.blank (start.run (begin genesis height time parent world))).run
      (actions.map Action.recorded)).deeds, d.OnRecord := by
  intro d hd
  obtain ⟨-, hordered⟩ := Chronicle.pairwise_marked Chronicle.indelible_outgrown
    (inOrder_begin hgenesis height time parent world) (Action.isImport_map_recorded himport)
  obtain ⟨horderly, hrequest⟩ := hordered d hd
  refine ⟨horderly, hrequest, ?_, Chronicle.recorded_run hd⟩
  exact Chronicle.forall_deeds_run (fun _ action h => h.step action)
    (fun n context parent world request (h : n.Steady) hcontext reg hreg hshows himport =>
      h.acted hcontext hreg hshows himport parent world)
    (steady_start.run _) _ d hd

/-- **Packets and pending upgrades agree.** From a well-formed genesis state on, whatever the host
does short of another import, every operation sends at most one packet, and none if it fails. It
sends a packet that schedules an upgrade exactly if the chainlet has no upgrade pending before and
one afterwards. The packet goes from the module's port over the channel on the record, and carries
the chain id and the plan name of the upgrade, and its height. A packet that asks to give an upgrade
up is sent while that is pending, over its channel and under its plan name, which are those of the
packet that scheduled it, and nothing is written. Whenever a packet is sent, the channel is open and
goes over one connection to the light client of the chainlet. For all but the number of packets, the
parent chain has to bound the name of the channel that is asked for. -/
theorem outbox_run {genesis : Genesis} (hgenesis : genesis.WellFormed) (height : Height)
    (time : Time) (parent : Parent ω) (world : ω) {actions : List (Action ω)}
    (himport : ∀ action ∈ actions, action.isImport = false) :
    let ch := (Chronicle.blank (start.run (begin genesis height time parent world))).run
      (actions.map Action.recorded)
    ∀ front d back, ch.deeds = front ++ d :: back → d.outbox.length ≤ 1 ∧
      (d.parent.BoundsChannelOf d.request → (d.Fails → d.outbox = []) ∧
        (∀ chainId, d.Opens chainId ↔ ∃ p ∈ d.outbox, ∃ plan height info,
          p.data = (PacketData.create chainId plan height info).encode) ∧
        ∀ p ∈ d.outbox, ∃ c upgrade plan,
          Readable.chainlet? d.after c.chainId = .ok (some c) ∧ c.upgrade? = some upgrade ∧
          p.port = Channel.port ∧ p.channel = upgrade.channel ∧
          Upgrade.planName c.version upgrade.targetVersion = .ok plan ∧
          c.Dispatched d.parent p d.left.world ∧
          (d.Opens c.chainId ∧ (∃ info, p.data =
            (PacketData.create c.chainId plan upgrade.targetHeight.number info).encode) ∨
          d.after = d.before ∧ p.data = (PacketData.cancel c.chainId plan).encode ∧
            c.ScheduledIn genesis upgrade front p)) := by
  intro ch front d back hdeeds
  have hrecord := onRecord_run hgenesis height time parent world himport
  have hd : d.OnRecord := hrecord d (by simp [ch, hdeeds])
  refine ⟨hd.length_outbox_le, fun hbounds => ⟨hd.outbox_of_fails hbounds, hd.opens_iff hbounds,
    fun p hp => ?_⟩⟩
  obtain ⟨-, notice, hposting⟩ := hd.exists_posting hbounds hp
  cases hposting with
  | @schedule idle c upgrade plan info _ found idle' stored pending letter dispatched =>
    obtain ⟨u, hu, hchannel, hplan⟩ := letter.pending
    obtain rfl : upgrade = u := Option.some.inj (pending.symm.trans hu)
    have hopens := Deed.opens_of_stored found idle' stored pending
    exact ⟨c, upgrade, plan, stored, pending, letter.port, hchannel, hplan, dispatched,
      .inl ⟨hopens, info, letter.content⟩⟩
  | @cancel c plan _ found letter dispatched unchanged =>
    obtain ⟨upgrade, hpending, hchannel, hplan⟩ := letter.pending
    have hscheduled : c.ScheduledIn genesis upgrade front p := by
      obtain ⟨hempty, hstaged⟩ := shows_begin genesis height time parent world
      obtain ⟨o₀, o, ⟨reg₀, hstart, hshows⟩, hlink⟩ := Chronicle.exists_link_run
        (P := fun o => ∃ reg, (reg = genesis.registry ∨ reg = Registry.empty) ∧ reg.ShownBy o)
        ⟨_, .inr rfl, hempty.opened⟩ hstaged (Action.isImport_map_recorded himport)
      rw [show Chronicle.deeds _ = _ from hdeeds] at hlink
      exact letter.scheduledIn hgenesis hstart hshows hlink.before
        (fun e he => hrecord e (by simp [ch, hdeeds, he])) found hpending
    exact ⟨c, upgrade, plan, unchanged ▸ found, hpending, letter.port, hchannel, hplan,
      dispatched, .inr ⟨unchanged, letter.content, hscheduled⟩⟩

/-- The upgrade that is scheduled first, and asked to be given up next. -/
theorem outbox_cancelledTwice :
    steady.WellFormed ∧ (∀ action ∈ cancelledTwice, action.isImport = false) ∧
      ∃ (d e : Deed (Host.World × List Call)) (rest : List (Deed (Host.World × List Call))),
        ((Chronicle.blank (start.run (begin steady ⟨1⟩ ⟨0⟩ (Host.World.parent true) tracked))).run
          (cancelledTwice.map Action.recorded)).deeds = d :: e :: rest ∧
        d.parent.BoundsChannelOf d.request ∧ e.parent.BoundsChannelOf e.request ∧
        d.outbox = [letter 1 scheduling] ∧ d.Opens "alpha_1-1" ∧
        e.outbox = [letter 2 cancelling] ∧ e.after = e.before ∧
        (letter 2 cancelling).Revokes (letter 1 scheduling) := by
  obtain ⟨s₁, s₂, s₃, s₄, s₅, s₆, c₁, c₂, c₃, c₄, c₅, c₆, ⟨h₁, h₂, -, -, -, -⟩, hdeeds⟩ :=
    deeds_cancelledTwice
  have hsent : (deed s₁ c₁ [] upgradeAsked).outbox = [letter 1 scheduling] :=
    (deed_upgrade c₁ [] h₁).2.1
  have hsent' : (deed s₂ c₂ (firstLetters.take 1) cancelAsked).outbox = [letter 2 cancelling] :=
    (deed_cancel c₂ (firstLetters.take 1) h₂).2.1
  have hbounds : (Host.World.parent true).recorded.BoundsChannelOf upgradeAsked := by
    rintro _ ⟨⟩
    exact Parent.boundsChannel_of_length_le fun _ _ _ => by decide
  have hbounds' : (Host.World.parent true).recorded.BoundsChannelOf cancelAsked :=
    Parent.boundsChannelOf_cancelUpgrade cancelRequest
  have hagrees := outbox_run wellFormed_steady ⟨1⟩ ⟨0⟩ (Host.World.parent true) tracked
    isImport_cancelledTwice
  obtain ⟨-, hopens, -⟩ := (hagrees [] _ _ hdeeds).2 hbounds
  obtain ⟨-, -, hletters⟩ := (hagrees [_] _ _ hdeeds).2 hbounds'
  have hopened : (deed s₁ c₁ [] upgradeAsked).Opens "alpha_1-1" :=
    (hopens "alpha_1-1").2 ⟨_, by rw [hsent]; exact List.mem_singleton_self _, _, _, _, rfl⟩
  obtain ⟨c, upgrade, plan, -, -, -, -, -, -, hoccasion⟩ :=
    hletters (letter 2 cancelling) (by rw [hsent']; exact List.mem_singleton_self _)
  rcases hoccasion with ⟨-, info, hdata⟩ | ⟨hsame, -, hscheduled⟩
  · cases PacketData.encode_injective hdata
  · rcases hscheduled with ⟨early, e, late, q, hfront, -, hq, hrevokes, -⟩ |
      ⟨⟨c', hheld, -, -, hpending⟩, -⟩
    · have he : deed s₁ c₁ [] upgradeAsked = e :=
        (List.mem_singleton.1 (hfront ▸ List.mem_append_right _ List.mem_cons_self)).symm
      subst he
      rw [hsent, List.mem_singleton] at hq
      exact ⟨wellFormed_steady, isImport_cancelledTwice, _, _, _, hdeeds, hbounds, hbounds', hsent,
        hopened, hsent', hsame, hq ▸ hrevokes⟩
    · rw [List.mem_singleton.1 hheld] at hpending
      cases hpending

end Node

end Chainlets
