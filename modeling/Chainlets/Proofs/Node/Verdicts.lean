import Chainlets.Proofs.Node.Ascent
import Chainlets.Proofs.Registry.Grounded

/-!
# What a verified callback does, exactly

A callback is verified when its content can be read, its channel has a name, and the walk from that
channel ends at the chainlet. Over a well-formed registry nothing more is left to chance. Which of
five things happens depends on what the callback is, whether an upgrade is pending, and whether its
plan name is the one that the callback carries:

```
                            the plan name of the   another plan name     nothing
                            pending upgrade                              pending
  scheduling refused        given up               ignored               ignored
  scheduling timed out      given up               ignored               ignored
  scheduling agreed to      stays                  ignored               ignored
  cancellation agreed to    given up               ignored               ignored
  cancellation refused      stays                  ignored               ignored
  cancellation timed out    stays                  ignored               ignored
  confirmed                 completed              ignored               refused
  anything else             refused                refused               refused
```

A confirmation without a plan name counts as one under the plan name of the pending upgrade.

## Main definitions

* `Callback.news?` — what a callback is.
* `Callback.Verified` — a callback is verified for a chainlet.
* `Callback.GivesUp`, `Callback.Completes`, `Callback.Misses`, `Callback.OutOfPlace` — the table.

## Main results

* `Callback.perform_verified` — **what a verified callback does, exactly.**
-/

namespace Chainlets

open Execution Handshake

/-! ### Verified callbacks -/

namespace Callback

variable {ω : Type} {cb : Callback} {parent : Parent ω} {world : ω} {o : Overlay}
  {data : PacketData} {c : Chainlet} {news : News}

/-- What a callback is, going by the kind of its packet and by what became of the packet. Chainlets
send nothing but confirmations, and nobody sends confirmations to them. -/
def news? : Callback → PacketData → Option News
  | .received _, .confirm .. => some .confirmed
  | .answered _ answer, .create .. =>
    (Acknowledgement.decode answer).toOption.map fun ack => .createAnswered ack.isSuccess
  | .answered _ answer, .cancel .. =>
    (Acknowledgement.decode answer).toOption.map fun ack => .cancelAnswered ack.isSuccess
  | .expired _, .create .. => some .createExpired
  | .expired _, .cancel .. => some .cancelExpired
  | _, _ => none

/-- A callback is verified for a chainlet. -/
structure Verified (cb : Callback) (parent : Parent ω) (world : ω) (o : Overlay)
    (data : PacketData) (c : Chainlet) : Prop where
  /-- The content of the packet can be read, … -/
  content : PacketData.decode cb.packet.data = .ok data
  /-- … and so can the answer, if there is one. -/
  answer : ∀ packet answer, cb = .answered packet answer →
    ∃ ack, Acknowledgement.decode answer = .ok ack
  /-- The name of the channel is not blank. -/
  channel : Blank.isBlankText cb.channel = false
  /-- The packet names the chainlet, … -/
  found : Readable.chainlet? o data.chainId = .ok (some c)
  /-- … and the channel leads there, and is that of the pending upgrade, if one is pending. -/
  trusted : c.TrustedOver parent world cb.port cb.channel

/-- What a verified callback brings is what it is. -/
theorem Verified.tells_iff (h : cb.Verified parent world o data c)
    (hvalid : ChainId.isValid data.chainId = true) :
    cb.Tells data news ↔ cb.news? data = some news := by
  have hcontent := h.content
  constructor
  · intro htells
    cases htells with
    | confirmed => rfl
    | createAnswered _ answered => simp [news?, answered, Except.toOption]
    | createExpired => rfl
    | cancelAnswered _ answered => simp [news?, answered, Except.toOption]
    | cancelExpired => rfl
  · intro hnews
    cases cb with
    | received packet =>
      cases data with
      | create => cases hnews
      | cancel => cases hnews
      | confirm chainId height plan =>
        cases hnews
        exact .confirmed hcontent (Confirmation.check_eq_ok_iff.2 ⟨hvalid, h.channel⟩)
    | answered packet answer =>
      obtain ⟨ack, hack⟩ := h.answer packet answer rfl
      cases data with
      | create =>
        obtain rfl : News.createAnswered ack.isSuccess = news := by
          simpa [news?, hack, Except.toOption] using hnews
        exact .createAnswered hcontent hack
      | cancel =>
        obtain rfl : News.cancelAnswered ack.isSuccess = news := by
          simpa [news?, hack, Except.toOption] using hnews
        exact .cancelAnswered hcontent hack
      | confirm => cases hnews
    | expired packet =>
      cases data with
      | create => cases hnews; exact .createExpired hcontent
      | cancel => cases hnews; exact .cancelExpired hcontent
      | confirm => cases hnews

/-! ### The table -/

/-- A callback gives the pending upgrade up: it carries the plan name of the upgrade, and says that
its scheduling was refused or timed out, or that its cancellation was agreed to. -/
def GivesUp (cb : Callback) (data : PacketData) (c : Chainlet) : Prop :=
  (∃ news ∈ [.createAnswered false, .createExpired, .cancelAnswered true],
    cb.news? data = some news) ∧
  ∃ upgrade, c.upgrade? = some upgrade ∧
    Upgrade.planName c.version upgrade.targetVersion = .ok data.plan

/-- A callback completes a pending upgrade: it is a confirmation, under the plan name of the upgrade
or under none. -/
def Completes (cb : Callback) (data : PacketData) (c : Chainlet) (upgrade : PendingUpgrade) :
    Prop :=
  cb.news? data = some .confirmed ∧ c.upgrade? = some upgrade ∧
    (data.plan = "" ∨ Upgrade.planName c.version upgrade.targetVersion = .ok data.plan)

/-- A callback is about another upgrade than the pending one, and why. -/
def Misses (cb : Callback) (data : PacketData) (c : Chainlet) (reason : IgnoreReason) : Prop :=
  ∃ news, cb.news? data = some news ∧
    News.Misses c.version data.plan news c.upgrade? reason

/-- A callback is out of place: it is of a kind that is never sent, or confirms what nobody asked
for. -/
def OutOfPlace (cb : Callback) (data : PacketData) (c : Chainlet) : Prop :=
  cb.news? data = none ∨ cb.news? data = some .confirmed ∧ c.upgrade? = none

end Callback

/-! ### Pending upgrades of a well-formed registry -/

namespace Chainlet.Sound

variable {catalog : Catalog} {c : Chainlet} {upgrade : PendingUpgrade}

theorem nameable (h : c.Sound catalog) : News.Nameable c.version c.upgrade? := by
  intro upgrade hpending
  obtain ⟨s, t, hs, ht, -⟩ := Upgrade.kind_eq_breaking_iff.1 (h.upgrade upgrade hpending).2.2
  exact ⟨_, Upgrade.planName_eq_ok_iff.2 ⟨s, t, hs, ht, rfl⟩⟩

/-- A pending upgrade leads to another version. -/
theorem targetVersion_ne (h : c.Sound catalog) (hpending : c.upgrade? = some upgrade) :
    upgrade.targetVersion ≠ c.version := by
  obtain ⟨s, t, hs, ht, hfollows⟩ :=
    Upgrade.kind_eq_breaking_iff.1 (h.upgrade upgrade hpending).2.2
  intro hsame
  rw [hsame] at ht
  exact hfollows.ne (ht.unique hs)

end Chainlet.Sound

namespace Handshake.Transition

variable {c : Chainlet} {t : Transition}

/-- A record on which an upgrade was pending, and from which only that is missing, was given up on,
because a completed upgrade leads to another version. -/
theorem eq_cancel_of_apply (hpending : c.upgrade? ≠ none)
    (hother : ∀ upgrade, t = .complete upgrade → upgrade.targetVersion ≠ c.version)
    (h : t.apply c = { c with upgrade? := none }) :
    ∃ upgrade reason, t = .cancel upgrade reason := by
  cases t with
  | stay => exact absurd (congrArg Chainlet.upgrade? h) hpending
  | ignore reason => exact absurd (congrArg Chainlet.upgrade? h) hpending
  | cancel upgrade reason => exact ⟨upgrade, reason, rfl⟩
  | complete upgrade => exact absurd (congrArg Chainlet.version h) (hother upgrade rfl)

/-- A record that runs another version was completed. -/
theorem eq_complete_of_apply (hother : (t.apply c).version ≠ c.version) :
    ∃ upgrade, t = .complete upgrade := by
  cases t with
  | stay => exact absurd rfl hother
  | ignore reason => exact absurd rfl hother
  | cancel upgrade reason => exact absurd rfl hother
  | complete upgrade => exact ⟨upgrade, rfl⟩

/-- Only a transition that gives an upgrade up or completes it writes anything. -/
theorem written_of_ne (hcancel : ¬ ∃ upgrade reason, t = .cancel upgrade reason)
    (hcomplete : ∀ upgrade, t ≠ .complete upgrade) (u : Updates) :
    t.apply c = c ∧ Operation.written c t u = u := by
  cases t with
  | stay => exact ⟨rfl, rfl⟩
  | ignore reason => exact ⟨rfl, rfl⟩
  | cancel upgrade reason => exact absurd ⟨upgrade, reason, rfl⟩ hcancel
  | complete upgrade => exact absurd rfl (hcomplete upgrade)

end Handshake.Transition

namespace Callback

variable {ω : Type} {cb : Callback} {reg : Registry} {store : Store} {parent : Parent ω}
  {live : Live ω} {world : ω} {o : Overlay} {data : PacketData} {c : Chainlet} {news : News}
  {t : Transition}

/-- What a verified callback does to the record of a chainlet: how its execution ends, and what the
controller leaves. -/
structure Verdict (cb : Callback) (store : Store) (live : Live ω) (data : PacketData) (c : Chainlet)
    (executed : Except Failure Outcome) (after : Except Failure Response × Live ω) : Prop where
  /-- A pending upgrade has a plan name. -/
  named : ∀ upgrade, c.upgrade? = some upgrade →
    ∃ name, Upgrade.planName c.version upgrade.targetVersion = .ok name
  /-- The pending upgrade is given up, on the old version, exactly if the callback gives it up. -/
  givenUp_iff : c.upgrade? ≠ none ∧
    Readable.chainlet? (Overlay.mk store after.2.context.updates) data.chainId =
      .ok (some { c with upgrade? := none }) ↔ cb.GivesUp data c
  /-- The chainlet runs the target version of the pending upgrade, with nothing pending any more,
  exactly if the callback completes the upgrade. -/
  completed_iff : ∀ upgrade, c.upgrade? = some upgrade ∧
    Readable.chainlet? (Overlay.mk store after.2.context.updates) data.chainId =
      .ok (some { c with version := upgrade.targetVersion, upgrade? := none }) ↔
        cb.Completes data c upgrade
  /-- Otherwise nothing is written, and the record is as it was. -/
  unchanged : ¬ cb.GivesUp data c → (∀ upgrade, ¬ cb.Completes data c upgrade) →
    after.2.context.updates = live.context.updates ∧
      Readable.chainlet? (Overlay.mk store after.2.context.updates) data.chainId = .ok (some c)
  /-- No other record is ever touched. -/
  rest : ∀ k, k ≠ (Entry.chainlet data.chainId).key →
    Readable.get? (Overlay.mk store after.2.context.updates) k =
      Readable.get? (Overlay.mk store live.context.updates) k
  /-- The callback is ignored exactly if it is about another upgrade. -/
  ignored_iff : ∀ reason, executed = .ok (.ignored reason) ↔ cb.Misses data c reason
  /-- All that is left of a callback that is ignored is one event. -/
  ignored : ∀ reason, cb.Misses data c reason →
    after.1 = .ok (cb.response (.ignored reason)) ∧ after.2.context = { live.context with
      events := live.context.events ++ [.ignorePacket c.chainId data.plan reason] }
  /-- The callback fails exactly if it is out of place. -/
  failed_iff : (∃ failure, executed = .error failure) ↔ cb.OutOfPlace data c
  /-- A callback that fails is refused, and changes nothing. -/
  failed : cb.OutOfPlace data c →
    ∃ failure, after.1 = cb.refusal failure ∧ after.2.context = live.context

/-! ### Callbacks that pass every check -/

/-- The table of callbacks is the table of transitions. -/
theorem Reaches.givesUp_iff (h : cb.Reaches parent world o data news c t)
    (hnews : cb.news? data = some news) :
    cb.GivesUp data c ↔ ∃ upgrade reason, t = .cancel upgrade reason := by
  rw [News.cancel_iff h.moves, GivesUp, hnews]
  simp

theorem Reaches.completes_iff (h : cb.Reaches parent world o data news c t)
    (hnews : cb.news? data = some news) (upgrade : PendingUpgrade) :
    cb.Completes data c upgrade ↔ t = .complete upgrade := by
  rw [News.complete_iff h.moves, Completes, hnews, Option.some.injEq]

theorem Reaches.misses_iff (h : cb.Reaches parent world o data news c t)
    (hnews : cb.news? data = some news) (hnamed : News.Nameable c.version c.upgrade?)
    (reason : IgnoreReason) : cb.Misses data c reason ↔ t = .ignore reason := by
  have hmoves : news.transition c.upgrade? c.version data.plan = .ok (.ignore reason) ↔
      t = .ignore reason := by rw [h.moves, Except.ok.injEq]
  rw [← hmoves, News.ignore_iff hnamed, Misses, hnews]
  simp

theorem Reaches.not_outOfPlace (h : cb.Reaches parent world o data news c t)
    (hnews : cb.news? data = some news) (hnamed : News.Nameable c.version c.upgrade?) :
    ¬ cb.OutOfPlace data c := by
  rintro (hnone | ⟨hconfirmed, hidle⟩)
  · cases hnews.symm.trans hnone
  · exact (News.exists_transition_iff hnamed).1 ⟨t, h.moves⟩
      ⟨Option.some.inj (hnews.symm.trans hconfirmed), hidle⟩

/-- What a callback does that has passed every check. -/
theorem Reaches.verdict
    (h : cb.Reaches parent live.world (Overlay.mk store live.context.updates) data news c t)
    (hnews : cb.news? data = some news) (hreg : reg.WellFormed)
    (hshows : reg.ShownBy (Overlay.mk store live.context.updates)) :
    cb.Verdict store live data c (Controller.execute store parent cb.execution live).1
      (Controller.perform store parent cb.request live) := by
  obtain ⟨hheld, hid⟩ := h.held hreg hshows
  have hsound := (hreg.chainlets _ c hheld).2
  have hnamed := hsound.nameable
  have hfits : Stored.fits (t.apply c) = true :=
    Operation.fits_apply (hshows.chainlets.fits hheld) h.moves
  obtain ⟨height, entries, hrun⟩ := run_of_reaches (s := ⟨store, parent, live.cache⟩)
    (m := ⟨live.context, live.world, live.log⟩) h hfits
  obtain ⟨hexecuted, hresult, hcontext⟩ := perform_of_ok hrun
  have hrecord : Readable.chainlet? (Overlay.mk store
      (Controller.perform store parent cb.request live).2.context.updates) data.chainId =
        .ok (some (t.apply c)) := by
    rw [hcontext, (hshows.written (by rw [hid, hheld]) (.inr hfits)).chainlet?_eq_some_iff, ← hid,
      ← t.chainId_apply c]
    exact OrderedMap.get?_insert_self ..
  constructor
  case named => exact hnamed
  case givenUp_iff =>
    rw [hrecord, h.givesUp_iff hnews, Except.ok.injEq, Option.some.injEq]
    constructor
    · rintro ⟨hpending, hsame⟩
      refine Transition.eq_cancel_of_apply hpending (fun upgrade ht => ?_) hsame
      exact hsound.targetVersion_ne ((News.complete_iff h.moves).1 ht).2.1
    · intro hcancel
      obtain ⟨-, upgrade, hpending, -⟩ := (News.cancel_iff h.moves).1 hcancel
      obtain ⟨_, _, rfl⟩ := hcancel
      exact ⟨by simp [hpending], rfl⟩
  case completed_iff =>
    intro upgrade
    rw [hrecord, h.completes_iff hnews, Except.ok.injEq, Option.some.injEq]
    constructor
    · rintro ⟨hpending, hsame⟩
      have hversion : (t.apply c).version ≠ c.version := by
        rw [hsame]
        exact hsound.targetVersion_ne hpending
      obtain ⟨upgrade', ht⟩ := Transition.eq_complete_of_apply hversion
      obtain ⟨-, hpending', -⟩ := (News.complete_iff h.moves).1 ht
      rwa [Option.some.inj (hpending'.symm.trans hpending)] at ht
    · intro ht
      obtain ⟨-, hpending, -⟩ := (News.complete_iff h.moves).1 ht
      rw [ht]
      exact ⟨hpending, rfl⟩
  case unchanged =>
    intro hkept hincomplete
    obtain ⟨hsame, hunwritten⟩ := Transition.written_of_ne (c := c)
      (mt (h.givesUp_iff hnews).2 hkept)
      (fun upgrade ht => hincomplete upgrade ((h.completes_iff hnews upgrade).2 ht))
      live.context.updates
    refine ⟨?_, by rw [hrecord, hsame]⟩
    rw [hcontext]
    exact hunwritten
  case rest =>
    intro k hk
    rw [hcontext]
    exact Operation.get?_written store t live.context.updates (hid ▸ hk)
  case ignored_iff =>
    intro reason
    rw [hexecuted, h.misses_iff hnews hnamed, Except.ok.injEq, Transition.outcome_eq_ignored_iff]
  case ignored =>
    intro reason hreason
    obtain rfl := (h.misses_iff hnews hnamed reason).1 hreason
    exact ⟨hresult, hcontext⟩
  case failed_iff =>
    rw [hexecuted]
    simp [h.not_outOfPlace hnews hnamed]
  case failed => exact fun hmisplaced => absurd hmisplaced (h.not_outOfPlace hnews hnamed)

/-! ### Callbacks that are out of place -/

namespace OutOfPlace

/-- All that can be told by a callback that is out of place is a confirmation that nobody asked
for. -/
theorem unasked (h : cb.OutOfPlace data c) (hnews : cb.news? data = some news) :
    news = .confirmed ∧ c.upgrade? = none := by
  rcases h with hnone | ⟨hconfirmed, hidle⟩
  · cases hnone.symm.trans hnews
  · exact ⟨Option.some.inj (hnews.symm.trans hconfirmed), hidle⟩

theorem not_givesUp (h : cb.OutOfPlace data c) : ¬ cb.GivesUp data c := by
  rintro ⟨⟨news, hkind, hnews⟩, -⟩
  rw [(h.unasked hnews).1] at hkind
  simp at hkind

theorem not_completes (h : cb.OutOfPlace data c) (upgrade : PendingUpgrade) :
    ¬ cb.Completes data c upgrade := by
  rintro ⟨hnews, hpending, -⟩
  cases hpending.symm.trans (h.unasked hnews).2

theorem not_misses (h : cb.OutOfPlace data c) (reason : IgnoreReason) :
    ¬ cb.Misses data c reason := by
  rintro ⟨news, hnews, hmisses⟩
  obtain ⟨rfl, hidle⟩ := h.unasked hnews
  rw [hidle] at hmisses
  cases hmisses with
  | nothingPending answers => exact answers rfl

/-- A callback that is out of place does not pass every check, so it fails. -/
theorem fails (h : cb.OutOfPlace data c)
    (hverified : cb.Verified parent live.world (Overlay.mk store live.context.updates) data c)
    (hvalid : ChainId.isValid data.chainId = true)
    (hnamed : News.Nameable c.version c.upgrade?) :
    ∃ failure, (Controller.execute store parent cb.execution live).1 = .error failure ∧
      (Controller.perform store parent cb.request live).1 = cb.refusal failure ∧
      (Controller.perform store parent cb.request live).2.context = live.context := by
  cases hrun : (cb.execution : Execution ω Outcome).run ⟨store, parent, live.cache⟩
      ⟨live.context, live.world, live.log⟩ with
  | mk result m' =>
    cases result with
    | error failure => exact ⟨failure, perform_of_error hrun⟩
    | ok outcome =>
      obtain ⟨data', news, c', t, _, hreaches, -⟩ := run_eq_ok hrun
      obtain rfl : data = data' :=
        Except.ok.inj (hverified.content.symm.trans hreaches.tells.content)
      obtain rfl : c = c' :=
        Option.some.inj (Except.ok.inj (hverified.found.symm.trans hreaches.found))
      exact absurd h
        (hreaches.not_outOfPlace ((hverified.tells_iff hvalid).1 hreaches.tells) hnamed)

/-- What a callback does that is out of place. -/
theorem verdict (h : cb.OutOfPlace data c)
    (hverified : cb.Verified parent live.world (Overlay.mk store live.context.updates) data c)
    (hvalid : ChainId.isValid data.chainId = true)
    (hnamed : News.Nameable c.version c.upgrade?) :
    cb.Verdict store live data c (Controller.execute store parent cb.execution live).1
      (Controller.perform store parent cb.request live) := by
  obtain ⟨failure, hexecuted, hresult, hcontext⟩ := h.fails hverified hvalid hnamed
  have hrecord : Readable.chainlet? (Overlay.mk store
      (Controller.perform store parent cb.request live).2.context.updates) data.chainId =
        .ok (some c) := by
    rw [hcontext]
    exact hverified.found
  constructor
  case named => exact hnamed
  case givenUp_iff =>
    rw [hrecord, Except.ok.injEq, Option.some.injEq]
    refine iff_of_false ?_ h.not_givesUp
    rintro ⟨hpending, hsame⟩
    exact hpending (congrArg Chainlet.upgrade? hsame)
  case completed_iff =>
    intro upgrade
    rw [hrecord, Except.ok.injEq, Option.some.injEq]
    refine iff_of_false ?_ (h.not_completes upgrade)
    rintro ⟨hpending, hsame⟩
    cases hpending.symm.trans (congrArg Chainlet.upgrade? hsame)
  case unchanged => exact fun _ _ => ⟨congrArg Context.updates hcontext, hrecord⟩
  case rest =>
    intro k _
    rw [hcontext]
  case ignored_iff =>
    intro reason
    rw [hexecuted]
    exact iff_of_false (fun hok => by cases hok) (h.not_misses reason)
  case ignored => exact fun reason hmisses => absurd hmisses (h.not_misses reason)
  case failed_iff => exact iff_of_true ⟨failure, hexecuted⟩ h
  case failed => exact fun _ => ⟨failure, hresult, hcontext⟩

end OutOfPlace

/-- **What a verified callback does, exactly**, over a well-formed registry: the record is given up
on, completed or left alone as the table has it, a callback about another upgrade is ignored and
leaves one event, and a callback that is out of place fails and changes nothing. -/
theorem perform_verified (cb : Callback) (hreg : reg.WellFormed)
    (hshows : reg.ShownBy (Overlay.mk store live.context.updates))
    (hverified : cb.Verified parent live.world (Overlay.mk store live.context.updates) data c) :
    cb.Verdict store live data c (Controller.execute store parent cb.execution live).1
      (Controller.perform store parent cb.request live) := by
  have hheld := hshows.chainlet?_eq_some_iff.1 hverified.found
  obtain ⟨hid, hsound⟩ := hreg.chainlets _ c hheld
  have hvalid : ChainId.isValid data.chainId = true := hid ▸ hsound.valid
  have hnamed := hsound.nameable
  by_cases hmisplaced : cb.OutOfPlace data c
  · exact hmisplaced.verdict hverified hvalid hnamed
  · obtain ⟨news, hnews⟩ := Option.ne_none_iff_exists'.1 fun hnone => hmisplaced (.inl hnone)
    have hasked : ¬ (news = .confirmed ∧ c.upgrade? = none) := by
      rintro ⟨rfl, hidle⟩
      exact hmisplaced (.inr ⟨hnews, hidle⟩)
    obtain ⟨t, ht⟩ := (News.exists_transition_iff hnamed).2 hasked
    exact Reaches.verdict ⟨(hverified.tells_iff hvalid).2 hnews, hverified.found,
      hverified.trusted, ht⟩ hnews hreg hshows

end Callback

/-! ### A confirmation that completes an upgrade -/

namespace Node

/-- What there is when the confirmation arrives. -/
def arrival : Live Host.World := ⟨.fresh ⟨2⟩ ⟨0⟩, resumed.cache, tracked, []⟩

theorem verified_confirmation :
    (Callback.received confirmation).Verified (Host.World.parent true) arrival.world
      (Overlay.mk resumed.store arrival.context.updates) (.confirm "alpha_1-1" 9 "1-to-2")
      waiting where
  content := PacketData.decode_encode (.confirm "alpha_1-1" 9 "1-to-2")
  answer _ _ h := by cases h
  channel := by decide +kernel
  found := by decide +kernel
  trusted := trusted_waiting

theorem completes_confirmation :
    (Callback.received confirmation).Completes (.confirm "alpha_1-1" 9 "1-to-2") waiting
      ⟨"2.0.0", ⟨10⟩, "channel-0"⟩ :=
  ⟨rfl, rfl, .inr (by decide +kernel)⟩

theorem exists_shown_arrival : ∃ reg : Registry, reg.WellFormed ∧
    reg.ShownBy (Overlay.mk resumed.store arrival.context.updates) := by
  have himport : ∀ action ∈ reopened, action.isImport = false := by
    simp [reopened, Action.isImport]
  have hcontext : resumed.context? = some arrival.context := rfl
  have hinOrder : resumed.InOrder := inOrder_run wellFormed_upgrading _ _ _ _ himport
  exact hinOrder.staged _ hcontext

end Node

theorem Callback.perform_verified_confirmation :
    ∃ reg : Registry, reg.WellFormed ∧
      reg.ShownBy (Overlay.mk Node.resumed.store Node.arrival.context.updates) ∧
      (Callback.received Node.confirmation).Verified (Host.World.parent true) Node.arrival.world
        (Overlay.mk Node.resumed.store Node.arrival.context.updates)
        (.confirm "alpha_1-1" 9 "1-to-2") Node.waiting ∧
      Readable.chainlet? (Overlay.mk Node.resumed.store
        (Controller.perform Node.resumed.store (Host.World.parent true)
          (Callback.received Node.confirmation).request Node.arrival).2.context.updates)
        "alpha_1-1" = .ok (some { Node.waiting with version := "2.0.0", upgrade? := none }) := by
  obtain ⟨reg, hreg, hshows⟩ := Node.exists_shown_arrival
  have hverdict := perform_verified (.received Node.confirmation) hreg hshows
    Node.verified_confirmation
  have hrecord := ((hverdict.completed_iff _).2 Node.completes_confirmation).2
  have hid : (PacketData.confirm "alpha_1-1" 9 "1-to-2").chainId = "alpha_1-1" := rfl
  rw [hid] at hrecord
  exact ⟨reg, hreg, hshows, Node.verified_confirmation, hrecord⟩

end Chainlets
