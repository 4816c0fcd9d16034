import Chainlets.Proofs.Node.Completion
import Chainlets.Proofs.Upgrade.Letters

/-!
# Answers to letters

What the transport says of a packet that was sent: it was answered, or it timed out. Every packet
that an operation sends with success is a letter about the pending upgrade of a chainlet, and an
answer carries the content of the letter back, over the channel of the letter. It is acted on if
the upgrade that is pending by then has the plan name and the channel of the letter, whether or not
it is the one that the letter was about.

## Main definitions

* `Callback.Answers` — a callback is the answer to a packet that was sent.
* `Readable.Awaits` — some upgrade of a chainlet is pending.
* `Deed.Sends`, `Deed.Handles` — a packet was sent; an answer was acted on.
* `Chainlet.SameTerms` — upgrades that are not told apart.

## Main results

* `Deed.mailed` — **every packet that is sent is a letter.**
* `Deed.handles_letter_iff`, `Deed.not_leaves_letter_iff` — **which answers are acted on, and which
  change a record.**
-/

namespace Chainlets

open Handshake

variable {ω : Type}

/-! ### Answers -/

/-- A packet is one that was sent. -/
structure Packet.Is (packet : Packet) (p : Host.SentPacket) : Prop where
  port : packet.sourcePort = p.port
  channel : packet.sourceChannel = p.channel
  sequence : packet.sequence = p.sequence
  data : packet.data = p.data

namespace Callback

/-- A callback is the answer to a packet that was sent, or the news that it timed out. -/
def Answers (p : Host.SentPacket) : Callback → Prop
  | .received _ => False
  | .answered packet _ => packet.Is p
  | .expired packet => packet.Is p

variable {cb : Callback} {p : Host.SentPacket}

theorem Answers.packet (h : cb.Answers p) : cb.packet.Is p := by
  cases cb with
  | received packet => exact absurd h id
  | answered packet answer => exact h
  | expired packet => exact h

/-- An answer comes in over the port and the channel over which the packet was sent. -/
theorem Answers.port_eq (h : cb.Answers p) : cb.port = p.port := by
  cases cb with
  | received packet => exact absurd h id
  | answered packet answer => exact h.port
  | expired packet => exact h.port

theorem Answers.channel_eq (h : cb.Answers p) : cb.channel = p.channel := by
  cases cb with
  | received packet => exact absurd h id
  | answered packet answer => exact h.channel
  | expired packet => exact h.channel

theorem Answers.response_eq (h : cb.Answers p) (outcome : Outcome) :
    cb.response outcome = .outcome outcome := by
  cases cb with
  | received packet => exact absurd h id
  | answered packet answer => rfl
  | expired packet => rfl

theorem Answers.refusal_eq (h : cb.Answers p) (failure : Failure) :
    cb.refusal failure = .error failure := by
  cases cb with
  | received packet => exact absurd h id
  | answered packet answer => rfl
  | expired packet => rfl

/-- Only a packet that arrives confirms anything. -/
theorem Answers.ne_confirmed (h : cb.Answers p) {data : PacketData} {news : News}
    (htells : cb.Tells data news) : news ≠ .confirmed := by
  rintro rfl
  cases htells
  exact h

end Callback

/-! ### What answers do -/

/-- Some upgrade of a chainlet is pending. -/
def Readable.Awaits (o : Overlay) (chainId : String) : Prop :=
  ∃ c upgrade, Readable.chainlet? o chainId = .ok (some c) ∧ c.upgrade? = some upgrade

theorem Overlay.SameAs.awaits_iff {o o' : Overlay} (h : o.SameAs o') (chainId : String) :
    Readable.Awaits o chainId ↔ Readable.Awaits o' chainId := by
  rw [Readable.Awaits, Readable.Awaits, h.chainlet?_eq]

namespace Deed

/-- An answer is acted on. -/
def Handles (d : Deed ω) : Prop := d.result = .ok (.outcome .handled)

variable {d : Deed ω} {cb : Callback} {p : Host.SentPacket}

/-- An answer is acted on if it passes every check and names the pending upgrade. -/
theorem handles_iff (horderly : Orderly d.before) (hrequest : d.request = cb.request)
    (hanswers : cb.Answers p) :
    d.Handles ↔ ∃ data news c t, cb.Reaches d.parent d.live.world d.before data news c t ∧
      t.outcome = .handled := by
  obtain ⟨store, parent, request, live⟩ := d
  obtain rfl : request = cb.request := hrequest
  obtain ⟨reg, hreg, hshows⟩ := horderly
  constructor
  · intro hhandles
    have hhandles : (Controller.perform store parent cb.request live).1 = .ok (.outcome .handled) :=
      hhandles
    rcases cb.perform_cases store parent live with
      ⟨failure, hrefused, -⟩ | ⟨data, news, c, t, hreaches, hresult, -, -⟩
    · rw [hrefused, hanswers.refusal_eq] at hhandles
      cases hhandles
    · rw [hresult, hanswers.response_eq] at hhandles
      cases houtcome : t.outcome with
      | handled => exact ⟨data, news, c, t, hreaches, houtcome⟩
      | ignored reason => rw [houtcome] at hhandles; cases hhandles
  · rintro ⟨data, news, c, t, hreaches, houtcome⟩
    have hheld := (hreaches.held hreg hshows).1
    have hfits : Stored.fits (t.apply c) = true :=
      Operation.fits_apply (hshows.chainlets.fits hheld) hreaches.moves
    obtain ⟨hresult, -⟩ := Callback.perform_of_reaches hreaches hfits
    rw [houtcome, hanswers.response_eq] at hresult
    exact hresult

/-- An answer changes the record of a chainlet if it passes every check and settles the upgrade that
is pending on the chainlet. -/
theorem not_leaves_iff (horderly : Orderly d.before) (hrequest : d.request = cb.request)
    (hanswers : cb.Answers p) (chainId : String) :
    ¬ d.Leaves chainId ↔ ∃ data news c t,
      cb.Reaches d.parent d.live.world d.before data news c t ∧ data.chainId = chainId ∧
        t.apply c ≠ c := by
  obtain ⟨store, parent, request, live⟩ := d
  obtain rfl : request = cb.request := hrequest
  obtain ⟨reg, hreg, hshows⟩ := horderly
  constructor
  · intro hchanges
    rcases cb.perform_chainlet hreg parent live hshows chainId with
      hleft | ⟨data, news, c, t, hreaches, hnamed, -, hafter⟩
    · exact absurd hleft hchanges
    · refine ⟨data, news, c, t, hreaches, hnamed, fun hsame => hchanges ?_⟩
      rw [hsame] at hafter
      have hbefore := hreaches.found
      rw [hnamed] at hbefore
      exact hafter.trans hbefore.symm
  · rintro ⟨data, news, c, t, hreaches, rfl, hne⟩ hleft
    have hheld := (hreaches.held hreg hshows).1
    have hfits : Stored.fits (t.apply c) = true :=
      Operation.fits_apply (hshows.chainlets.fits hheld) hreaches.moves
    obtain ⟨hresult, -⟩ := Callback.perform_of_reaches hreaches hfits
    rcases cb.perform_settles hreg parent live hshows with
      ⟨⟨failure, hrefused⟩, -⟩ | ⟨data', news', c', t', hreaches', -, hshows'⟩
    · rw [hrefused, hanswers.refusal_eq] at hresult
      cases hresult
    · obtain ⟨rfl, rfl, rfl⟩ := hreaches.unique hreaches'
      have hid : (t.apply c).chainId = data.chainId :=
        (t.chainId_apply c).trans (hreaches.held hreg hshows).2
      have hget : (reg.putChainlet (t.apply c)).chainlets.get? data.chainId =
          some (t.apply c) := by
        rw [← hid]
        exact OrderedMap.get?_insert_self ..
      have hafter := hshows'.chainlet?_eq_some_iff.2 hget
      have hsame := hafter.symm.trans (Eq.trans hleft hreaches.found)
      exact hne (Option.some.inj (Except.ok.inj hsame))

end Deed

/-! ### What is sent -/

/-- An action, with the parent chain put on record. -/
def Node.Action.recorded : Node.Action ω → Node.Action (ω × List Call)
  | .openContext height time => .openContext height time
  | .perform parent world request => .perform parent.recorded (world, []) request
  | .commit logsEvents listener => .commit logsEvents listener
  | .drop => .drop
  | .latestCompatible stack current => .latestCompatible stack current
  | .invalidate => .invalidate

theorem Node.Action.isImport_recorded (action : Node.Action ω) :
    action.recorded.isImport = action.isImport := by
  cases action <;> rfl

theorem Node.Action.isImport_map_recorded {actions : List (Node.Action ω)}
    (himport : ∀ action ∈ actions, action.isImport = false) :
    ∀ action ∈ actions.map recorded, action.isImport = false := by
  intro _ hrecorded
  obtain ⟨action, hmem, rfl⟩ := List.mem_map.1 hrecorded
  exact (isImport_recorded action).trans (himport action hmem)

/-- In a run on record, each operation begins with a blank record. -/
theorem Chronicle.recorded_run {n : Node} {actions : List (Node.Action ω)}
    {d : Deed (ω × List Call)}
    (h : d ∈ ((blank n).run (actions.map Node.Action.recorded)).deeds) :
    ∃ (parent : Parent ω) (world : ω), d.parent = parent.recorded ∧ d.live.world = (world, []) := by
  obtain ⟨action, -, haction⟩ := List.mem_map.1 (mem_deeds_run h)
  cases action with
  | perform parent world request =>
    obtain ⟨hparent, hworld, -⟩ := Node.Action.perform.inj haction
    exact ⟨parent, world, hparent.symm, hworld.symm⟩
  | _ => cases haction

/-- A packet was sent, by something that was done with success. What failed was undone on the parent
chain too. -/
def Deed.Sends (d : Deed (ω × List Call)) (p : Host.SentPacket) : Prop :=
  (∃ response, d.result = .ok response) ∧ p ∈ Call.letters d.left.world.2

/-- Every packet that is sent is a letter. -/
theorem Deed.mailed {d : Deed (ω × List Call)} (horderly : Orderly d.before) {parent : Parent ω}
    {world : ω} (hparent : d.parent = parent.recorded) (hworld : d.live.world = (world, []))
    {p : Host.SentPacket} (hsends : d.Sends p) :
    ∃ c data, Chainlet.Mailed d.before d.after c data p := by
  obtain ⟨store, _, request, live⟩ := d
  obtain rfl : _ = parent.recorded := hparent
  have hworld : live.world.2 = [] := congrArg Prod.snd hworld
  obtain ⟨reg, hreg, hshows⟩ := horderly
  obtain ⟨⟨response, hresult⟩, hmem⟩ := hsends
  have hmem : p ∈ Call.letters (Controller.perform store parent.recorded request live).2.world.2 :=
    hmem
  have hresult : (Controller.perform store parent.recorded request live).1 = .ok response := hresult
  obtain ⟨letters, notices, hletters, -, hmails⟩ :=
    @Controller.perform_sends _ store parent reg hreg.filed request live hshows
  rw [hletters, hworld] at hmem
  cases hmails with
  | nothing => cases hmem
  | posted done posting =>
    obtain rfl := List.mem_singleton.1 hmem
    exact posting.mailed
  | lost failed _ =>
    obtain ⟨failure, hfailed⟩ := failed
    rw [hfailed] at hresult
    cases hresult

/-- The pending upgrades of two records are not told apart: they were negotiated over one channel,
and have one plan name. -/
def Chainlet.SameTerms (c c' : Chainlet) : Prop :=
  ∃ upgrade upgrade' plan, c.upgrade? = some upgrade ∧ c'.upgrade? = some upgrade' ∧
    upgrade'.channel = upgrade.channel ∧
    Upgrade.planName c.version upgrade.targetVersion = .ok plan ∧
    Upgrade.planName c'.version upgrade'.targetVersion = .ok plan

/-- An answer to a letter is acted on if an upgrade is pending that is not told apart from the one
that the letter is about. -/
theorem Deed.handles_letter_iff {d : Deed ω} {cb : Callback} {p : Host.SentPacket} {c : Chainlet}
    {data : PacketData} (horderly : Orderly d.before) (hrequest : d.request = cb.request)
    (hanswers : cb.Answers p) (hletter : c.Letter data p) :
    d.Handles ↔ ∃ c' news, Readable.chainlet? d.before c.chainId = .ok (some c') ∧
      c.SameTerms c' ∧ c'.TrustedOver d.parent d.live.world p.port p.channel ∧
      cb.Tells data news := by
  obtain ⟨upgrade, hpending, hchannel, hplan⟩ := hletter.pending
  have hcontent : PacketData.decode cb.packet.data = .ok data := by
    rw [hanswers.packet.data, hletter.content]
    exact PacketData.decode_encode data
  rw [Deed.handles_iff horderly hrequest hanswers]
  constructor
  · rintro ⟨data', news, c', t, hreaches, houtcome⟩
    obtain rfl : data = data' := Except.ok.inj (hcontent.symm.trans hreaches.tells.content)
    obtain ⟨upgrade', hpending', hnames⟩ := (News.outcome_eq_handled_iff hreaches.moves).1 houtcome
    have hplan' : Upgrade.planName c'.version upgrade'.targetVersion = .ok data.plan :=
      hnames.resolve_right fun h => hanswers.ne_confirmed hreaches.tells h.1
    have hfound := hreaches.found
    have htrusted := hreaches.trusted
    rw [hletter.about] at hfound
    rw [hanswers.port_eq, hanswers.channel_eq] at htrusted
    refine ⟨c', news, hfound, ?_, htrusted, hreaches.tells⟩
    exact ⟨upgrade, upgrade', data.plan, hpending, hpending',
      (htrusted.recorded upgrade' hpending').trans hchannel, hplan, hplan'⟩
  · rintro ⟨c', news, hfound, ⟨old, upgrade', plan, hold, hpending', -, hname, hname'⟩, htrusted,
      htells⟩
    obtain rfl : upgrade = old := Option.some.inj (hpending.symm.trans hold)
    obtain rfl : data.plan = plan := Except.ok.inj (hplan.symm.trans hname)
    have hnames : news.Names c'.version data.plan upgrade' := .inl hname'
    have hmoves : news.transition c'.upgrade? c'.version data.plan = .ok (news.act upgrade') := by
      rw [hpending']
      exact News.transition_of_names hnames
    rw [← hletter.about] at hfound
    rw [← hanswers.port_eq, ← hanswers.channel_eq] at htrusted
    refine ⟨data, news, c', news.act upgrade', ⟨htells, hfound, htrusted, hmoves⟩, ?_⟩
    exact (News.outcome_eq_handled_iff hmoves).2 ⟨upgrade', hpending', hnames⟩

/-- An answer to a letter changes a record if it is that of the chainlet, and the answer is acted on
and settles the upgrade. -/
theorem Deed.not_leaves_letter_iff {d : Deed ω} {cb : Callback} {p : Host.SentPacket} {c : Chainlet}
    {data : PacketData} (horderly : Orderly d.before) (hrequest : d.request = cb.request)
    (hanswers : cb.Answers p) (hletter : c.Letter data p) (chainId : String) :
    ¬ d.Leaves chainId ↔ chainId = c.chainId ∧ d.Handles ∧
      ∃ news, cb.Tells data news ∧ news.settles = true := by
  have hcontent : PacketData.decode cb.packet.data = .ok data := by
    rw [hanswers.packet.data, hletter.content]
    exact PacketData.decode_encode data
  rw [Deed.not_leaves_iff horderly hrequest hanswers, Deed.handles_iff horderly hrequest hanswers]
  constructor
  · rintro ⟨data', news, c', t, hreaches, rfl, hne⟩
    obtain rfl : data = data' := Except.ok.inj (hcontent.symm.trans hreaches.tells.content)
    obtain ⟨hsettles, hnamed⟩ := (News.apply_ne_iff hreaches.moves).1 hne
    refine ⟨hletter.about, ?_, news, hreaches.tells, hsettles⟩
    exact ⟨data, news, c', t, hreaches, (News.outcome_eq_handled_iff hreaches.moves).2 hnamed⟩
  · rintro ⟨rfl, ⟨data', news, c', t, hreaches, houtcome⟩, news', htells, hsettles⟩
    obtain ⟨rfl, rfl⟩ := htells.unique hreaches.tells
    refine ⟨data, news', c', t, hreaches, hletter.about, ?_⟩
    exact (News.apply_ne_iff hreaches.moves).2
      ⟨hsettles, (News.outcome_eq_handled_iff hreaches.moves).1 houtcome⟩

/-- An answer that is acted on finds an upgrade pending. -/
theorem Deed.Handles.awaits {d : Deed ω} {cb : Callback} {p : Host.SentPacket} {c : Chainlet}
    {data : PacketData} (h : d.Handles) (horderly : Orderly d.before)
    (hrequest : d.request = cb.request) (hanswers : cb.Answers p) (hletter : c.Letter data p) :
    Readable.Awaits d.before c.chainId := by
  obtain ⟨c', news, hfound, ⟨_, upgrade', _, -, hpending', -⟩, -⟩ :=
    (Deed.handles_letter_iff horderly hrequest hanswers hletter).1 h
  exact ⟨c', upgrade', hfound, hpending'⟩

/-- An answer under a plan that is outgrown is not acted on. -/
theorem Outgrown.not_handles {d : Deed ω} {cb : Callback} {p : Host.SentPacket} {c : Chainlet}
    {data : PacketData} (h : Outgrown d.before c.chainId data.plan) (horderly : Orderly d.before)
    (hrequest : d.request = cb.request) (hanswers : cb.Answers p) (hletter : c.Letter data p) :
    ¬ d.Handles := by
  intro hhandles
  obtain ⟨c', -, hfound, ⟨old, upgrade', plan, hold, -, -, hname, hname'⟩, -⟩ :=
    (Deed.handles_letter_iff horderly hrequest hanswers hletter).1 hhandles
  obtain ⟨upgrade, hpending, -, hplan⟩ := hletter.pending
  obtain rfl : upgrade = old := Option.some.inj (hpending.symm.trans hold)
  obtain rfl : data.plan = plan := Except.ok.inj (hplan.symm.trans hname)
  exact h.planName_ne hfound _ hname'

end Chainlets
