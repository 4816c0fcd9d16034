import Chainlets.Proofs.Node.Answers
import Chainlets.Proofs.Upgrade.Requests

/-!
# Stale answers

An answer to a letter may come when the upgrade that the letter is about has been resolved already,
and another upgrade of the chainlet is pending. The two are told apart by their plan names and by
their channels, and by nothing else. So an answer that is stale is acted on as if it were about the
newer upgrade, if that one leads from the same series to the same series and was negotiated over the
same channel. Otherwise it is ignored or refused. The newer upgrade has other series whenever the
older one was completed, because completed plans do not come back.

## Main definitions

* `Deed.Resolves`, `Deed.Opens` — an upgrade is pending no more; an upgrade becomes pending.
* `Transported` — the rules that a transport keeps to.

## Main results

* `Node.stale_run` — **which stale answers are acted on, and what they change.**
* `Node.not_always_ignored` — a stale answer that gives a newer upgrade up.
-/

namespace Chainlets

open Handshake

variable {ω : Type}

namespace Deed

/-- An upgrade of a chainlet is pending before, and none is afterwards. -/
def Resolves (d : Deed ω) (chainId : String) : Prop :=
  Readable.Awaits d.before chainId ∧ ¬ Readable.Awaits d.after chainId

/-- No upgrade of a chainlet is pending before, and one is afterwards. -/
def Opens (d : Deed ω) (chainId : String) : Prop :=
  ¬ Readable.Awaits d.before chainId ∧ Readable.Awaits d.after chainId

end Deed

/-- **Which stale answers are acted on, and what they change.** From a well-formed genesis state on,
whatever the host does short of another import, every packet that is sent is a letter about an
upgrade that is pending. Let that upgrade be resolved, and then the packet be answered or time out.
That is acted on exactly if an upgrade is pending that is not told apart from the old one, the
channel is trusted, and the answer can be read. The pending upgrade was requested after the old one
was resolved, and nothing was completed in the meantime under their plan name. Only what is acted on
and settles an upgrade changes any record, and then it is that of the chainlet. -/
theorem Node.stale_run {genesis : Genesis} (hgenesis : genesis.WellFormed) (height : Height)
    (time : Time) (parent : Parent ω) (world : ω) {actions : List (Action ω)}
    (himport : ∀ action ∈ actions, action.isImport = false) :
    let ch := (Chronicle.blank (start.run (begin genesis height time parent world))).run
      (actions.map Action.recorded)
    ∀ front sent early resolved late answered back,
      ch.deeds = front ++ sent :: (early ++ resolved :: (late ++ answered :: back)) →
      ∀ p, sent.Sends p → ∃ c data, Chainlet.Mailed sent.before sent.after c data p ∧
        (resolved.Resolves c.chainId → ∀ cb : Callback, answered.request = cb.request →
          cb.Answers p →
          (answered.Handles ↔ ∃ c' news,
            Readable.chainlet? answered.before c.chainId = .ok (some c') ∧ c.SameTerms c' ∧
              c'.TrustedOver answered.parent answered.live.world p.port p.channel ∧
              cb.Tells data news) ∧
          (answered.Handles → (∃ e ∈ late, e.Opens c.chainId) ∧
            ∀ e ∈ early ++ resolved :: late, ¬ e.Completes c.chainId data.plan) ∧
          ∀ chainId, ¬ answered.Leaves chainId ↔ chainId = c.chainId ∧ answered.Handles ∧
            ∃ news, cb.Tells data news ∧ news.settles = true) := by
  intro ch front sent early resolved late answered back hdeeds p hsends
  have himport' := Action.isImport_map_recorded himport
  obtain ⟨hmarks, horderly⟩ := Chronicle.pairwise_marked Chronicle.indelible_outgrown
    (inOrder_begin hgenesis height time parent world) himport'
  have hsent : sent ∈ ch.deeds := by simp [hdeeds]
  have hanswered : answered ∈ ch.deeds := by simp [hdeeds]
  obtain ⟨_, _, hparent, hworld⟩ := Chronicle.recorded_run hsent
  obtain ⟨c, data, hmailed⟩ := Deed.mailed (horderly sent hsent).1 hparent hworld hsends
  refine ⟨c, data, hmailed, fun hresolves cb hrequest hanswers => ?_⟩
  have hletter := hmailed.letter
  have hbefore := (horderly answered hanswered).1
  refine ⟨Deed.handles_letter_iff hbefore hrequest hanswers hletter, fun hhandles => ⟨?_, ?_⟩,
    Deed.not_leaves_letter_iff hbefore hrequest hanswers hletter⟩
  · -- What is pending now was not pending when the old upgrade had been resolved.
    have hsplit : ch.deeds =
        (front ++ sent :: early) ++ resolved :: (late ++ answered :: back) := by
      simp [hdeeds]
    have hlink : Deed.Link resolved.after late answered.before :=
      Chronicle.link_run himport' hsplit
    exact hlink.exists_change (fun o o' hsame => hsame.awaits_iff c.chainId) hresolves.2
      (hhandles.awaits hbefore hrequest hanswers hletter)
  · -- A plan that was completed in the meantime would be outgrown.
    intro e he hcompletes
    have hsplit : ch.deeds =
        (front ++ [sent]) ++ ((early ++ resolved :: late) ++ answered :: back) := by
      simp [hdeeds]
    rw [hsplit] at hmarks
    have hoccurs := (List.pairwise_append.1 (List.pairwise_append.1 hmarks).2.1).2.2
    have houtgrown : Outgrown answered.before c.chainId data.plan :=
      hoccurs e he answered List.mem_cons_self c.chainId data.plan hcompletes
    exact houtgrown.not_handles hbefore hrequest hanswers hletter hhandles

/-- The transport keeps to its rules: it numbers packets, and it answers only what was sent, and
that at most once. When an answer comes is up to the transport. -/
inductive Transported : List (Deed (ω × List Call)) → Prop
  | nil : Transported []
  | concat {past : List (Deed (ω × List Call))} {d : Deed (ω × List Call)}
      (before : Transported past)
      (numbered : ∀ e ∈ past, ∀ p q, e.Sends p → d.Sends q → p.sequence ≠ q.sequence)
      (answered : ∀ cb : Callback, d.request = cb.request → (∃ packet, cb = .received packet) ∨
        ∃ p, cb.Answers p ∧ (∃ e ∈ past, e.Sends p) ∧
          ∀ e ∈ past, ∀ cb' : Callback, e.request = cb'.request → ¬ cb'.Answers p) :
      Transported (past ++ [d])

/-! ### A cancellation that is asked for twice -/

namespace Node

/-- A consumer on which nothing is pending. -/
def idle : Chainlet := { waiting with upgrade? := none }

/-- The same consumer, with a breaking upgrade pending. -/
def scheduled : Chainlet := { idle with upgrade? := some ⟨"2.0.0", ⟨107⟩, "channel-0"⟩ }

/-- A genesis state with a consumer on which nothing is pending. -/
def steady : Genesis := { upgrading with chainlets := [idle] }

theorem wellFormed_steady : steady.WellFormed where
  accepted := rfl
  consumer c hc := by
    rw [List.mem_singleton.1 hc]
    decide
  upgrade c hc upgrade hupgrade := by
    rw [List.mem_singleton.1 hc] at hupgrade
    cases hupgrade

/-- The maintainer asks for the breaking upgrade. -/
def upgradeRequest : RequestUpgrade := ⟨"launcher", "alpha_1-1", "2.0.0", 0, "channel-0"⟩

/-- The maintainer asks for it to be given up. -/
def cancelRequest : CancelUpgrade := ⟨"launcher", "alpha_1-1"⟩

/-- What the host is asked for on their behalf. -/
def upgradeAsked : Request := .handle (.requestUpgrade upgradeRequest)

/-- The same of the request to give it up. -/
def cancelAsked : Request := .handle (.cancelUpgrade cancelRequest)

/-- The content of the packet that schedules the upgrade. -/
def scheduling : PacketData := .create "alpha_1-1" "1-to-2" 107 "b"

/-- The content of a packet that cancels it. -/
def cancelling : PacketData := .cancel "alpha_1-1" "1-to-2"

/-- A packet that was sent to the chainlet. -/
def letter (number : UInt64) (data : PacketData) : Host.SentPacket :=
  ⟨Channel.port, "channel-0", ⟨number⟩, (Height.mk 7).add steady.params.timeoutHeightDelta,
    (Time.mk 0).add steady.params.timeout, data.encode⟩

/-- The parent chain, when some packets were sent. -/
def posted (letters : List Host.SentPacket) : Host.World := { tracked with sent := letters }

/-- The chainlet agrees to a cancellation. -/
def agreement (number : UInt64) : Callback :=
  .answered ⟨⟨number⟩, Channel.port, "channel-0", Channel.port, "channel-9", cancelling.encode,
    (letter number cancelling).timeoutHeight, (letter number cancelling).timeoutTime⟩
    (Acknowledgement.success EmptyPayload.mk).encode

/-- What is done in a context of its own. -/
def deed (store : Store) (cache : TreeCache) (letters : List Host.SentPacket) (request : Request) :
    Deed (Host.World × List Call) :=
  ⟨store, (Host.World.parent true).recorded, request,
    ⟨.fresh ⟨2⟩ ⟨0⟩, cache, (posted letters, []), []⟩⟩

/-- A context is opened, something is done in it, and it is committed. -/
def block (letters : List Host.SentPacket) (request : Request) : List (Action Host.World) :=
  [.openContext ⟨2⟩ ⟨0⟩, .perform (Host.World.parent true) (posted letters) request,
    .commit true .listening]

/-- The stack of the chainlet. -/
def alpha : Stack := steady.catalog.head (by decide)

/-- What is read of a state in these contexts. -/
structure Standing (o : Overlay) (c : Chainlet) : Prop where
  params : Readable.params o = .ok steady.params
  stack : Readable.stack? o "alpha" = .ok (some alpha)
  found : Readable.chainlet? o "alpha_1-1" = .ok (some c)

namespace Standing

variable {store : Store} {u : Updates} {c : Chainlet}

/-- What was read of a context is read of the store once it is committed. -/
theorem committed (h : Standing (Overlay.mk store u) c) :
    Standing (Overlay.mk (store.write u) ∅) c := by
  have hsame : (Overlay.mk (store.write u) ∅).SameAs (Overlay.mk store u) := fun k =>
    (Overlay.get?_of_empty _ k).trans (Overlay.get?_of_write store u k)
  obtain ⟨hparams, hstack, hfound⟩ := h
  refine ⟨?_, ?_, ?_⟩
  · rw [Readable.params, hsame.read?_eq, ← Readable.params, hparams]
  · rw [Readable.stack?, hsame.read?_eq, ← Readable.stack?, hstack]
  · rw [hsame.chainlet?_eq, hfound]

/-- The record of the chainlet is written. -/
theorem put (h : Standing (Overlay.mk store u) c) {c' : Chainlet} (hfits : Stored.fits c' = true) :
    Standing (Overlay.mk store (u.insert (Entry.chainlet "alpha_1-1").key (Stored.encode c')))
      c' := by
  have hrest {k : Bytes} (hk : k ≠ (Entry.chainlet "alpha_1-1").key) :=
    (Overlay.get?_of_insert store u _ k (Stored.encode c')).trans (if_neg hk)
  obtain ⟨hparams, hstack, -⟩ := h
  rw [Readable.params, Readable.read?] at hparams
  rw [Readable.stack?, Readable.read?] at hstack
  refine ⟨?_, ?_, Registry.ShownBy.read?_of_insert store u (.chainlet "alpha_1-1") hfits⟩
  · rw [Readable.params, Readable.read?, hrest (by decide +kernel), hparams]
  · rw [Readable.stack?, Readable.read?, hrest (by decide +kernel), hstack]

end Standing

/-- One context after another, in a chronicle in which none is open. -/
theorem run_block {store : Store} {cache : TreeCache} {past : List (Deed (Host.World × List Call))}
    {letters : List Host.SentPacket} {request : Request} {u : Updates} {c : Chainlet}
    (hupdates : (deed store cache letters request).left.context.updates = u)
    (h : Standing (Overlay.mk store u) c) :
    ∃ store' cache', Standing (Overlay.mk store' ∅) c ∧
      (Chronicle.mk ⟨store, cache, none⟩ past []).run
        ((block letters request).map Action.recorded) =
          ⟨⟨store', cache', none⟩, past ++ [deed store cache letters request], []⟩ := by
  have hrun : ∃ cache', (Chronicle.mk ⟨store, cache, none⟩ past []).run
      ((block letters request).map Action.recorded) =
        ⟨⟨store.write (deed store cache letters request).left.context.updates, cache', none⟩,
          past ++ [deed store cache letters request], []⟩ := ⟨_, rfl⟩
  obtain ⟨cache', hrun⟩ := hrun
  rw [hupdates] at hrun
  exact ⟨_, cache', h.committed, hrun⟩

section Deeds

variable {store : Store} (cache : TreeCache) (letters : List Host.SentPacket)

theorem reachableOver (c : Chainlet) (hconsumer : c.consumer? = some ⟨"1"⟩) :
    c.ReachableOver (Host.World.parent true).recorded (posted letters, ([] : List Call)) "channel-0"
      ⟨7⟩ where
  route := by
    have hclient : (Host.World.parent true).consumerClient? ⟨"1"⟩ tracked = some "client-1" := by
      decide +kernel
    have hend : tracked.routes.channel? Channel.port "channel-0" =
        some ⟨.isOpen, ["connection-0"]⟩ := by decide +kernel
    have hleads : tracked.routes.client? "connection-0" = some "client-1" := by decide +kernel
    have hheight : tracked.routes.height? "client-1" = some ⟨7⟩ := by decide +kernel
    exact ⟨⟨"1"⟩, "client-1", "connection-0", hconsumer, hclient, hend, hleads, hheight⟩

theorem trusted_scheduled :
    scheduled.TrustedOver (Host.World.parent true).recorded (posted letters, ([] : List Call))
      Channel.port "channel-0" where
  leads := by
    obtain ⟨consumer, client, connection, hconsumer, hclient, hend, hleads, -⟩ :=
      (reachableOver letters scheduled rfl).route
    exact ⟨consumer, client, hconsumer, hclient, rfl, .isOpen, connection, hend, hleads⟩
  recorded := by
    rintro _ ⟨⟩
    rfl

/-- What the parent chain answers when it is told to send a packet, and what is on record then. -/
theorem sendPacket_posted (data : PacketData) :
    (Host.World.parent true).recorded.sendPacket Channel.port "channel-0"
      ((Height.mk 7).add steady.params.timeoutHeightDelta)
      ((Time.mk 0).add steady.params.timeout) data.encode (posted letters, []) =
    (.ok ⟨.ofNat (letters.length + 1)⟩,
      (posted (letters ++ [letter (.ofNat (letters.length + 1)) data]),
        [.sendPacket Channel.port "channel-0" ((Height.mk 7).add steady.params.timeoutHeightDelta)
          ((Time.mk 0).add steady.params.timeout) data.encode
          (.ok ⟨.ofNat (letters.length + 1)⟩)])) := rfl

/-- What comes of a message that is handled with success. -/
theorem deed_handle {msg : Message} {m' : Machine (Host.World × List Call)}
    (hcheck : msg.check = .ok ())
    (hrun : (Operation.ofMessage msg).run ⟨store, (Host.World.parent true).recorded, cache⟩
      ⟨.fresh ⟨2⟩ ⟨0⟩, (posted letters, []), []⟩ = (.ok (), m')) :
    (deed store cache letters (.handle msg)).result = .ok .done ∧
      (deed store cache letters (.handle msg)).left.world = m'.world ∧
      (deed store cache letters (.handle msg)).left.context = m'.context := by
  have hperform := @Controller.perform_handle _ store (Host.World.parent true).recorded msg
    ⟨.fresh ⟨2⟩ ⟨0⟩, cache, (posted letters, []), []⟩ m' hcheck hrun
  rw [deed, Deed.result, Deed.left]
  dsimp only
  rw [hperform]
  exact ⟨rfl, rfl, rfl⟩

/-- The upgrade is asked for. -/
theorem deed_upgrade (h : Standing (Overlay.mk store ∅) idle) :
    let d := deed store cache letters upgradeAsked
    d.result = .ok .done ∧
      Call.letters d.left.world.2 = [letter (.ofNat (letters.length + 1)) scheduling] ∧
      d.left.context.updates =
        (∅ : Updates).insert (Entry.chainlet "alpha_1-1").key (Stored.encode scheduled) := by
  intro d
  have hgranted : upgradeRequest.Granted (Host.World.parent true).recorded (posted letters, [])
      (Overlay.mk store ∅) steady.params idle ⟨"b", "2.0.0", "b", true, true⟩ ⟨7⟩ "1-to-2" :=
    ⟨h.params, h.found, rfl, rfl, ⟨alpha, h.stack, by decide +kernel⟩, by decide, by decide +kernel,
      rfl, reachableOver letters idle rfl, by decide +kernel⟩
  have hheight : Height.mk 107 = (Height.mk 7).add (Word.add steady.params.minUpgradeHeightDelta
      upgradeRequest.heightDelta) := rfl
  have hdata : scheduling = .create idle.chainId "1-to-2" (Height.mk 107).number "b" := rfl
  have hscheduled : scheduled = { idle with
    upgrade? := some ⟨"2.0.0", ⟨107⟩, upgradeRequest.channel⟩ } := rfl
  have hrun := Operation.requestUpgrade_of_granted
    (s := ⟨store, (Host.World.parent true).recorded, cache⟩)
    (m := ⟨.fresh ⟨2⟩ ⟨0⟩, (posted letters, []), []⟩) hgranted hheight hdata
    (sendPacket_posted letters scheduling) hscheduled (by decide +kernel)
  have hcheck : (Message.requestUpgrade upgradeRequest).check = .ok () := by decide +kernel
  obtain ⟨hresult, hworld, hcontext⟩ := deed_handle cache letters hcheck hrun
  exact ⟨hresult, congrArg (Call.letters ·.2) hworld, congrArg Context.updates hcontext⟩

/-- The upgrade is asked to be given up. -/
theorem deed_cancel (h : Standing (Overlay.mk store ∅) scheduled) :
    let d := deed store cache letters cancelAsked
    d.result = .ok .done ∧
      Call.letters d.left.world.2 = [letter (.ofNat (letters.length + 1)) cancelling] ∧
      d.left.context.updates = ∅ := by
  intro d
  have hgranted : cancelRequest.Granted (Host.World.parent true).recorded (posted letters, [])
      (Overlay.mk store ∅) steady.params scheduled ⟨"2.0.0", ⟨107⟩, "channel-0"⟩ ⟨7⟩ "1-to-2" :=
    ⟨h.params, h.found, rfl, rfl, reachableOver letters scheduled rfl, by decide +kernel⟩
  have hdata : cancelling = .cancel scheduled.chainId "1-to-2" := rfl
  have hrun := Operation.cancelUpgrade_of_granted
    (s := ⟨store, (Host.World.parent true).recorded, cache⟩)
    (m := ⟨.fresh ⟨2⟩ ⟨0⟩, (posted letters, []), []⟩) hgranted hdata
    (sendPacket_posted letters cancelling)
  have hcheck : (Message.cancelUpgrade cancelRequest).check = .ok () := by decide +kernel
  obtain ⟨hresult, hworld, hcontext⟩ := deed_handle cache letters hcheck hrun
  exact ⟨hresult, congrArg (Call.letters ·.2) hworld, congrArg Context.updates hcontext⟩

/-- What the chainlet says. -/
theorem tells_agreement (number : UInt64) :
    (agreement number).Tells cancelling (.cancelAnswered true) := by
  have hcontent : PacketData.decode (agreement number).packet.data = .ok cancelling :=
    PacketData.decode_encode cancelling
  have hanswer : Acknowledgement.decode (Acknowledgement.success EmptyPayload.mk).encode =
      .ok (.success EmptyPayload.mk) := Acknowledgement.decode_encode _
  have hsuccess : (Acknowledgement.success EmptyPayload.mk).isSuccess = true := rfl
  have htells := Callback.Tells.cancelAnswered hcontent hanswer
  rw [hsuccess] at htells
  exact htells

/-- The chainlet agrees to a cancellation. -/
theorem deed_agreement (h : Standing (Overlay.mk store ∅) scheduled) (number : UInt64) :
    let d := deed store cache letters (agreement number).request
    d.result = .ok (.outcome .handled) ∧ Call.letters d.left.world.2 = [] ∧
      d.left.context.updates =
        (∅ : Updates).insert (Entry.chainlet "alpha_1-1").key (Stored.encode idle) := by
  intro d
  have hmoves : (Handshake.News.cancelAnswered true).transition scheduled.upgrade? scheduled.version
      cancelling.plan = .ok (.cancel ⟨"2.0.0", ⟨107⟩, "channel-0"⟩ .cancelled) := by decide +kernel
  have hreaches : (agreement number).Reaches d.parent d.live.world
      (Overlay.mk d.store d.live.context.updates) cancelling (.cancelAnswered true) scheduled
      (.cancel ⟨"2.0.0", ⟨107⟩, "channel-0"⟩ .cancelled) :=
    ⟨tells_agreement number, h.found, trusted_scheduled letters, hmoves⟩
  have hfits : Stored.fits ((Handshake.Transition.cancel ⟨"2.0.0", ⟨107⟩, "channel-0"⟩
      .cancelled).apply scheduled) = true := by decide +kernel
  obtain ⟨hresult, hupdates⟩ := Callback.perform_of_reaches hreaches hfits
  have hsent := (@Controller.callback_unsent _ store (Host.World.parent true) (agreement number)
    d.live).letters
  have hrequest : (agreement number).request = d.request := rfl
  rw [hrequest] at hresult hupdates hsent
  have hparent : (Host.World.parent true).recorded = d.parent := rfl
  have hstore : store = d.store := rfl
  rw [hparent, hstore] at hsent
  refine ⟨hresult, ?_, ?_⟩
  · rw [Deed.left, hsent]
    rfl
  · rw [Deed.left, hupdates]
    rfl

/-- A message is handled, and just one packet is sent. -/
structure Posts (d : Deed (Host.World × List Call)) (number : UInt64) (data : PacketData) :
    Prop where
  sends : ∀ p, d.Sends p ↔ p = letter number data
  message : ∃ msg, d.request = .handle msg

/-- The chainlet agrees to a cancellation, and no packet is sent. -/
structure Agrees (d : Deed (Host.World × List Call)) (number : UInt64) : Prop where
  silent : ∀ p, ¬ d.Sends p
  agreed : d.request = (agreement number).request

theorem posts_upgrade (h : Standing (Overlay.mk store ∅) idle) :
    Posts (deed store cache letters upgradeAsked)
      (.ofNat (letters.length + 1)) scheduling := by
  obtain ⟨hresult, hletters, -⟩ := deed_upgrade cache letters h
  refine ⟨fun p => ?_, _, rfl⟩
  rw [Deed.Sends, hletters, List.mem_singleton]
  exact and_iff_right ⟨_, hresult⟩

theorem posts_cancel (h : Standing (Overlay.mk store ∅) scheduled) :
    Posts (deed store cache letters cancelAsked)
      (.ofNat (letters.length + 1)) cancelling := by
  obtain ⟨hresult, hletters, -⟩ := deed_cancel cache letters h
  refine ⟨fun p => ?_, _, rfl⟩
  rw [Deed.Sends, hletters, List.mem_singleton]
  exact and_iff_right ⟨_, hresult⟩

theorem agrees_agreement (h : Standing (Overlay.mk store ∅) scheduled) (number : UInt64) :
    Agrees (deed store cache letters (agreement number).request) number := by
  obtain ⟨-, hletters, -⟩ := deed_agreement cache letters h number
  refine ⟨fun p => ?_, rfl⟩
  rw [Deed.Sends, hletters]
  exact fun hsends => List.not_mem_nil hsends.2

/-- The upgrade stays pending when it is asked to be given up. -/
theorem found_cancel (h : Standing (Overlay.mk store ∅) scheduled) :
    Readable.chainlet? (deed store cache letters cancelAsked).after "alpha_1-1" =
      .ok (some scheduled) := by
  obtain ⟨-, -, hupdates⟩ := deed_cancel cache letters h
  rw [Deed.after, hupdates]
  exact h.found

/-- After the agreement, nothing is pending. -/
theorem found_agreement (h : Standing (Overlay.mk store ∅) scheduled) (number : UInt64) :
    Readable.chainlet? (deed store cache letters (agreement number).request).after "alpha_1-1" =
      .ok (some idle) := by
  obtain ⟨-, -, hupdates⟩ := deed_agreement cache letters h number
  rw [Deed.after, hupdates]
  exact Registry.ShownBy.read?_of_insert store ∅ (.chainlet "alpha_1-1") (by decide +kernel)

theorem resolves_agreement (h : Standing (Overlay.mk store ∅) scheduled) (number : UInt64) :
    (deed store cache letters (agreement number).request).Resolves "alpha_1-1" := by
  refine ⟨⟨scheduled, _, h.found, rfl⟩, ?_⟩
  rintro ⟨c, upgrade, hfound, hpending⟩
  rw [found_agreement cache letters h number] at hfound
  cases hfound
  cases hpending

theorem answers_agreement (number : UInt64) :
    (agreement number).Answers (letter number cancelling) := ⟨rfl, rfl, rfl, rfl⟩

end Deeds

/-- A message answers nothing. -/
theorem handle_ne_request (msg : Message) (cb : Callback) : Request.handle msg ≠ cb.request := by
  cases cb <;> simp [Callback.request]

theorem agreement_eq {number : UInt64} {cb : Callback}
    (h : (agreement number).request = cb.request) : cb = agreement number := by
  cases cb with
  | received packet => cases h
  | expired packet => cases h
  | answered packet answer =>
    obtain ⟨rfl, rfl⟩ := Request.acknowledged.inj h
    rfl

section Rules

variable {past : List (Deed (Host.World × List Call))} {d : Deed (Host.World × List Call)}
  {number : UInt64} {data : PacketData}

theorem Posts.transported (h : Posts d number data) (hpast : Transported past)
    (hnew : ∀ e ∈ past, ∀ p, e.Sends p → p.sequence ≠ ⟨number⟩) : Transported (past ++ [d]) := by
  obtain ⟨msg, hmsg⟩ := h.message
  refine .concat hpast (fun e he p q hp hq => ?_) fun cb hcb => ?_
  · rw [(h.sends q).1 hq]
    exact hnew e he p hp
  · exact absurd (hmsg.symm.trans hcb) (handle_ne_request msg cb)

theorem Agrees.transported (h : Agrees d number) (hpast : Transported past)
    (hsent : ∃ e ∈ past, Posts e number cancelling)
    (hfirst : ∀ e ∈ past, (∃ msg, e.request = .handle msg) ∨
      ∃ other, Agrees e other ∧ other ≠ number) : Transported (past ++ [d]) := by
  refine .concat hpast (fun e he p q hp hq => absurd hq (h.silent q)) fun cb hcb => ?_
  obtain rfl := agreement_eq (h.agreed.symm.trans hcb)
  obtain ⟨e, he, hposts⟩ := hsent
  refine .inr ⟨_, answers_agreement number, ⟨e, he, (hposts.sends _).2 rfl⟩, ?_⟩
  intro e he cb' hcb' hanswers
  rcases hfirst e he with ⟨msg, hmsg⟩ | ⟨other, hagrees, hne⟩
  · exact handle_ne_request msg cb' (hmsg.symm.trans hcb')
  · obtain rfl := agreement_eq (hagrees.agreed.symm.trans hcb')
    exact hne (Sequence.mk.inj hanswers.packet.sequence)

end Rules

theorem transported_cancelledTwice {d₁ d₂ d₃ d₄ d₅ d₆ : Deed (Host.World × List Call)}
    (h₁ : Posts d₁ 1 scheduling) (h₂ : Posts d₂ 2 cancelling) (h₃ : Posts d₃ 3 cancelling)
    (h₄ : Agrees d₄ 2) (h₅ : Posts d₅ 4 scheduling) (h₆ : Agrees d₆ 3) :
    Transported [d₁, d₂, d₃, d₄, d₅, d₆] := by
  have t₁ : Transported ([] ++ [d₁]) := h₁.transported .nil (by simp)
  have t₂ : Transported ([d₁] ++ [d₂]) := h₂.transported t₁ (by simp [h₁.sends, letter])
  have t₃ : Transported ([d₁, d₂] ++ [d₃]) :=
    h₃.transported t₂ (by simp [h₁.sends, h₂.sends, letter])
  have t₄ : Transported ([d₁, d₂, d₃] ++ [d₄]) := by
    refine h₄.transported t₃ ⟨d₂, by simp, h₂⟩ ?_
    simp [h₁.message, h₂.message, h₃.message]
  have t₅ : Transported ([d₁, d₂, d₃, d₄] ++ [d₅]) :=
    h₅.transported t₄ (by simp [h₁.sends, h₂.sends, h₃.sends, h₄.silent, letter])
  refine h₆.transported t₅ ⟨d₃, by simp, h₃⟩ ?_
  have hother : ∃ other, Agrees d₄ other ∧ other ≠ 3 := ⟨2, h₄, by decide⟩
  simp only [List.cons_append, List.nil_append, List.forall_mem_cons]
  exact ⟨.inl h₁.message, .inl h₂.message, .inl h₃.message, .inr hother, .inl h₅.message, by simp⟩

/-- The packets of the run, in order: an upgrade is scheduled, and cancelled twice. -/
def firstLetters : List Host.SentPacket :=
  [letter 1 scheduling, letter 2 cancelling, letter 3 cancelling]

/-- An upgrade is scheduled, and its cancellation is asked for twice. The chainlet agrees once, the
same upgrade is scheduled again, and the chainlet agrees to the other request. -/
def cancelledTwice : List (Action Host.World) :=
  [.commit true .listening] ++ block [] upgradeAsked ++
  block (firstLetters.take 1) cancelAsked ++ block (firstLetters.take 2) cancelAsked ++
  block firstLetters (agreement 2).request ++ block firstLetters upgradeAsked ++
  block (firstLetters ++ [letter 4 scheduling]) (agreement 3).request

theorem isImport_cancelledTwice : ∀ action ∈ cancelledTwice, action.isImport = false := by
  simp [cancelledTwice, block, upgradeAsked, cancelAsked, agreement, Action.isImport,
    Request.isImport, Callback.request]

/-- What was done in the run. -/
theorem deeds_cancelledTwice : ∃ (s₁ s₂ s₃ s₄ s₅ s₆ : Store) (c₁ c₂ c₃ c₄ c₅ c₆ : TreeCache),
    (Standing (Overlay.mk s₁ ∅) idle ∧ Standing (Overlay.mk s₂ ∅) scheduled ∧
      Standing (Overlay.mk s₃ ∅) scheduled ∧ Standing (Overlay.mk s₄ ∅) scheduled ∧
      Standing (Overlay.mk s₅ ∅) idle ∧ Standing (Overlay.mk s₆ ∅) scheduled) ∧
    ((Chronicle.blank (start.run (begin steady ⟨1⟩ ⟨0⟩ (Host.World.parent true) tracked))).run
      (cancelledTwice.map Action.recorded)).deeds =
      [deed s₁ c₁ [] upgradeAsked, deed s₂ c₂ (firstLetters.take 1) cancelAsked,
        deed s₃ c₃ (firstLetters.take 2) cancelAsked, deed s₄ c₄ firstLetters (agreement 2).request,
        deed s₅ c₅ firstLetters upgradeAsked,
        deed s₆ c₆ (firstLetters ++ [letter 4 scheduling]) (agreement 3).request] := by
  let n := (start.run (begin steady ⟨1⟩ ⟨0⟩ (Host.World.parent true) tracked)).run
    [(.commit true .listening : Action Host.World)]
  have hbegin : (Chronicle.blank (start.run (begin steady ⟨1⟩ ⟨0⟩ (Host.World.parent true)
      tracked))).run ([(.commit true .listening : Action Host.World)].map Action.recorded) =
        ⟨⟨n.store, n.cache, none⟩, [], []⟩ := rfl
  have hidle : Stored.fits idle = true := by decide +kernel
  have hscheduled : Stored.fits scheduled = true := by decide +kernel
  have h₁ : Standing (Overlay.mk n.store ∅) idle :=
    ⟨by decide +kernel, by decide +kernel, by decide +kernel⟩
  obtain ⟨s₂, c₂, h₂, hrun₁⟩ := run_block (deed_upgrade n.cache [] h₁).2.2 (h₁.put hscheduled)
  obtain ⟨s₃, c₃, h₃, hrun₂⟩ := run_block (deed_cancel c₂ (firstLetters.take 1) h₂).2.2 h₂
  obtain ⟨s₄, c₄, h₄, hrun₃⟩ := run_block (deed_cancel c₃ (firstLetters.take 2) h₃).2.2 h₃
  obtain ⟨s₅, c₅, h₅, hrun₄⟩ :=
    run_block (deed_agreement c₄ firstLetters h₄ 2).2.2 (h₄.put hidle)
  obtain ⟨s₆, c₆, h₆, hrun₅⟩ :=
    run_block (deed_upgrade c₅ firstLetters h₅).2.2 (h₅.put hscheduled)
  obtain ⟨s₇, c₇, -, hrun₆⟩ := run_block
    (deed_agreement c₆ (firstLetters ++ [letter 4 scheduling]) h₆ 3).2.2 (h₆.put hidle)
  refine ⟨n.store, s₂, s₃, s₄, s₅, s₆, n.cache, c₂, c₃, c₄, c₅, c₆, ⟨h₁, h₂, h₃, h₄, h₅, h₆⟩, ?_⟩
  simp only [cancelledTwice, List.map_append, Chronicle.run_append]
  rw [hbegin, hrun₁, hrun₂, hrun₃, hrun₄, hrun₅, hrun₆]
  rfl

/-- The second agreement is acted on, and the upgrade that was scheduled anew is given up. -/
theorem stale_cancelledTwice :
    steady.WellFormed ∧ (∀ action ∈ cancelledTwice, action.isImport = false) ∧
      ∃ d₁ d₂ d₃ d₄ d₅ d₆ : Deed (Host.World × List Call),
        ((Chronicle.blank (start.run (begin steady ⟨1⟩ ⟨0⟩ (Host.World.parent true) tracked))).run
          (cancelledTwice.map Action.recorded)).deeds = [d₁, d₂, d₃, d₄, d₅, d₆] ∧
        d₃.Sends (letter 3 cancelling) ∧ d₄.Resolves "alpha_1-1" ∧ d₅.Opens "alpha_1-1" ∧
        d₆.request = (agreement 3).request ∧ (agreement 3).Answers (letter 3 cancelling) ∧
        d₆.Handles ∧ ¬ d₆.Leaves "alpha_1-1" := by
  obtain ⟨s₁, s₂, s₃, s₄, s₅, s₆, c₁, c₂, c₃, c₄, c₅, c₆, ⟨-, -, h₃, h₄, -, h₆⟩, hdeeds⟩ :=
    deeds_cancelledTwice
  have hsends : (deed s₃ c₃ (firstLetters.take 2) cancelAsked).Sends (letter 3 cancelling) :=
    ((posts_cancel c₃ (firstLetters.take 2) h₃).sends _).2 rfl
  have hresolves := resolves_agreement c₄ firstLetters h₄ 2
  obtain ⟨c, data, hmailed, hstale⟩ := stale_run wellFormed_steady ⟨1⟩ ⟨0⟩
    (Host.World.parent true) tracked isImport_cancelledTwice [_, _] _ [] _ [_] _ [] hdeeds _ hsends
  -- The letter that was sent tells which chainlet it is about, and under which record.
  have hcontent : cancelling.encode = data.encode := hmailed.letter.content
  obtain rfl : cancelling = data := Except.ok.inj ((PacketData.decode_encode cancelling).symm.trans
    ((congrArg PacketData.decode hcontent).trans (PacketData.decode_encode data)))
  have hid : "alpha_1-1" = c.chainId := hmailed.letter.about
  have hfound := hmailed.found
  rw [← hid, found_cancel c₃ (firstLetters.take 2) h₃] at hfound
  obtain rfl : scheduled = c := Option.some.inj (Except.ok.inj hfound)
  obtain ⟨hhandles, hopens, hleaves⟩ := hstale hresolves (agreement 3) rfl (answers_agreement 3)
  have hterms : scheduled.SameTerms scheduled :=
    ⟨_, _, "1-to-2", rfl, rfl, rfl, by decide +kernel, by decide +kernel⟩
  have htells := tells_agreement 3
  have hhandled := hhandles.2 ⟨scheduled, _, h₆.found, hterms,
    trusted_scheduled (firstLetters ++ [letter 4 scheduling]), htells⟩
  obtain ⟨⟨e, he, hopened⟩, -⟩ := hopens hhandled
  rw [List.mem_singleton.1 he] at hopened
  exact ⟨wellFormed_steady, isImport_cancelledTwice, _, _, _, _, _, _, hdeeds, hsends, hresolves,
    hopened, rfl, answers_agreement 3, hhandled, (hleaves _).2 ⟨rfl, hhandled, _, htells, rfl⟩⟩

/-- Stale answers are not always ignored, even if the transport keeps to its rules. -/
theorem not_always_ignored :
    ¬ ∀ genesis : Genesis, genesis.WellFormed → ∀ (height : Height) (time : Time)
      (parent : Parent Host.World) (world : Host.World) (actions : List (Action Host.World)),
      (∀ action ∈ actions, action.isImport = false) →
      let ch := (Chronicle.blank (start.run (begin genesis height time parent world))).run
        (actions.map Action.recorded)
      Transported ch.deeds → ∀ front sent early resolved late answered back,
        ch.deeds = front ++ sent :: (early ++ resolved :: (late ++ answered :: back)) →
        ∀ p c data, sent.Sends p → Chainlet.Mailed sent.before sent.after c data p →
          resolved.Resolves c.chainId → ∀ cb : Callback, answered.request = cb.request →
          cb.Answers p → answered.Leaves c.chainId ∧ ¬ answered.Handles := by
  intro hall
  obtain ⟨s₁, s₂, s₃, s₄, s₅, s₆, c₁, c₂, c₃, c₄, c₅, c₆, ⟨h₁, h₂, h₃, h₄, h₅, h₆⟩, hdeeds⟩ :=
    deeds_cancelledTwice
  have hposts := posts_cancel c₃ (firstLetters.take 2) h₃
  have htransported := transported_cancelledTwice (posts_upgrade c₁ [] h₁)
    (posts_cancel c₂ (firstLetters.take 1) h₂) hposts (agrees_agreement c₄ firstLetters h₄ 2)
    (posts_upgrade c₅ firstLetters h₅)
    (agrees_agreement c₆ (firstLetters ++ [letter 4 scheduling]) h₆ 3)
  rw [← hdeeds] at htransported
  have hletter : scheduled.Letter cancelling (letter 3 cancelling) :=
    ⟨rfl, rfl, rfl, _, rfl, rfl, by decide +kernel⟩
  have hmailed : Chainlet.Mailed (Overlay.mk s₃ ∅)
      (deed s₃ c₃ (firstLetters.take 2) cancelAsked).after scheduled cancelling
      (letter 3 cancelling) :=
    ⟨hletter, found_cancel c₃ (firstLetters.take 2) h₃, .inr ⟨"1-to-2", rfl, h₃.found⟩⟩
  obtain ⟨-, hignored⟩ := hall steady wellFormed_steady ⟨1⟩ ⟨0⟩ (Host.World.parent true) tracked
    cancelledTwice isImport_cancelledTwice htransported [_, _] _ [] _ [_] _ [] hdeeds
    (letter 3 cancelling) scheduled cancelling ((hposts.sends _).2 rfl) hmailed
    (resolves_agreement c₄ firstLetters h₄ 2) (agreement 3) rfl (answers_agreement 3)
  exact hignored (deed_agreement c₆ (firstLetters ++ [letter 4 scheduling]) h₆ 3).1

end Node

end Chainlets
