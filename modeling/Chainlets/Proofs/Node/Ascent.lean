import Chainlets.Proofs.Node.Registry
import Chainlets.Proofs.Packet.RoundTrip
import Chainlets.Proofs.Registry.Series

/-!
# Chainlets climb one series at a time

Three paths lead to another version: a request within the series, the scan at the beginning of a
block, and the confirmation of a breaking upgrade. Only the last one leads out of the series, and it
leads to the next one, which was checked when the upgrade was scheduled. In between the version is
frozen, so what was checked then still holds when the confirmation arrives.

Seen from the committed stores of a run, the series of a chainlet never goes down.

## Main definitions

* `Readable.Precedes` — no record of a state is above its record in another state.
* `Request.Confirms` — a request is a confirmation for a chainlet.

## Main results

* `Controller.perform_series` — **what one operation does to the series of a chainlet.**
* `Node.Climbing.step` — no action of a host takes a chainlet down.
* `Node.series_run` — **in a run, chainlets climb one series at a time.**
-/

namespace Chainlets

open Execution Handshake

/-! ### One operation -/

/-- A request is a confirmation for a chainlet. -/
def Request.Confirms (request : Request) (chainId : String) : Prop :=
  ∃ packet height plan, request = .receive packet ∧
    PacketData.decode packet.data = .ok (.confirm chainId height plan)

variable {ω : Type}

/-- News that a pending upgrade is completed are brought by confirmations. -/
theorem Callback.Tells.confirms {cb : Callback} {data : PacketData}
    (h : cb.Tells data .confirmed) : cb.request.Confirms data.chainId := by
  cases h with
  | confirmed content => exact ⟨_, _, _, rfl, content⟩

theorem Callback.Tells.response_eq {cb : Callback} {data : PacketData}
    (h : cb.Tells data .confirmed) (outcome : Outcome) :
    cb.response outcome = .answer (.success EmptyPayload.mk) := by
  cases h with
  | confirmed content => rfl

/-- **What one operation does to the series of a chainlet**: the series stays, and the version too
while an upgrade is pending, or a confirmation for the chainlet was accepted and has completed its
pending upgrade. -/
theorem Controller.perform_series {request : Request} (himport : request.isImport = false)
    (store : Store) (parent : Parent ω) (live : Live ω)
    (h : Orderly (Overlay.mk store live.context.updates)) {chainId : String} {c : Chainlet}
    (hc : Readable.chainlet? (Overlay.mk store live.context.updates) chainId = .ok (some c)) :
    let after := perform store parent request live
    ∃ c', Readable.chainlet? (Overlay.mk store after.2.context.updates) chainId = .ok (some c') ∧
      (c.StaysPut c' ∨ request.Confirms chainId ∧
        after.1 = .ok (.answer (.success EmptyPayload.mk)) ∧ c.Completes c') := by
  intro after
  obtain ⟨reg, hreg, hshows⟩ := h
  have hheld : reg.chainlets.get? chainId = some c := hshows.chainlet?_eq_some_iff.1 hc
  obtain ⟨hid, hsound⟩ := hreg.chainlets chainId c hheld
  have hseries : ∃ s : Series, s.Has c.version := hreg.exists_series hsound.registered
  have hsame : c.StaysPut c := .of_version_eq rfl hseries
  rcases isMove_or_callback himport with hmove | ⟨cb, rfl⟩
  · obtain ⟨reg', hmoves, hshows'⟩ := perform_moves hmove hreg parent live hshows
    obtain ⟨c', hc', hsteady⟩ := hmoves.steady chainId c hheld
    exact ⟨c', hshows'.chainlet?_eq_some_iff.2 hc', .inl (hsteady.staysPut hseries)⟩
  · rcases cb.perform_chainlet hreg parent live hshows chainId with
      hleft | ⟨data, news, d, t, hreaches, hnamed, hresult, hafter⟩
    · exact ⟨c, hleft.trans hc, .inl hsame⟩
    · have hfound := hreaches.found
      rw [hnamed, hc] at hfound
      obtain rfl : c = d := Option.some.inj (Except.ok.inj hfound)
      refine ⟨t.apply c, hafter, ?_⟩
      rcases hsound.staysPut_or_completes hseries hreaches.moves with
        hstays | ⟨rfl, hcompletes⟩
      · exact .inl hstays
      · refine .inr ⟨hnamed ▸ hreaches.tells.confirms, ?_, hcompletes⟩
        rw [show after.1 = _ from hresult, hreaches.tells.response_eq]

/-! ### Runs -/

/-- Every chainlet of a state is in another state too, and in a series that is not below. -/
def Readable.Precedes {κ κ' : Type} [Readable κ] [Readable κ'] (r : κ) (r' : κ') : Prop :=
  ∀ chainId c, Readable.chainlet? r chainId = .ok (some c) →
    ∃ c', Readable.chainlet? r' chainId = .ok (some c') ∧ c.Precedes c'

namespace Readable.Precedes

variable {κ κ' κ'' : Type} [Readable κ] [Readable κ'] [Readable κ''] {r : κ} {r' : κ'} {r'' : κ''}

theorem refl (r : κ) : Readable.Precedes r r := fun _ c hc => ⟨c, hc, .refl c⟩

theorem trans (h : Readable.Precedes r r') (h' : Readable.Precedes r' r'') :
    Readable.Precedes r r'' := by
  intro chainId c hc
  obtain ⟨c', hc', hle⟩ := h chainId c hc
  obtain ⟨c'', hc'', hle'⟩ := h' chainId c' hc'
  exact ⟨c'', hc'', hle.trans hle'⟩

/-- Two states with the same values under all keys. -/
theorem of_get?_eq (h : ∀ k, Readable.get? r' k = Readable.get? r k) : Readable.Precedes r r' := by
  intro chainId c hc
  refine ⟨c, ?_, .refl c⟩
  rw [← hc, Readable.chainlet?, Readable.chainlet?, Readable.read?, Readable.read?, h]

end Readable.Precedes

theorem Controller.perform_precedes {request : Request} (himport : request.isImport = false)
    (store : Store) (parent : Parent ω) (live : Live ω)
    (h : Orderly (Overlay.mk store live.context.updates)) :
    Readable.Precedes (Overlay.mk store live.context.updates)
      (Overlay.mk store (perform store parent request live).2.context.updates) := by
  intro chainId c hc
  obtain ⟨c', hc', hstays | ⟨-, -, hcompletes⟩⟩ :=
    perform_series himport store parent live h hc
  · exact ⟨c', hc', hstays.precedes⟩
  · exact ⟨c', hc', hcompletes.precedes⟩

namespace Node

/-- A node is in order, and what the open context sees is not below what is committed. -/
structure Climbing (n : Node) : Prop where
  inOrder : n.InOrder
  staged : ∀ context, n.context? = some context →
    Readable.Precedes n.store (Overlay.mk n.store context.updates)

/-- No action of a host takes a chainlet down. -/
theorem Climbing.step {n : Node} (h : n.Climbing) {action : Action ω}
    (himport : action.isImport = false) :
    (n.step action).Climbing ∧ Readable.Precedes n.store (n.step action).store := by
  have hinOrder : (n.step action).InOrder := h.inOrder.step himport
  obtain ⟨store, cache, context?⟩ := n
  have hsame : Readable.Precedes store store := .refl store
  cases action with
  | openContext height time =>
    cases context? with
    | some context => exact ⟨h, hsame⟩
    | none =>
      refine ⟨⟨hinOrder, ?_⟩, hsame⟩
      rintro _ ⟨⟩
      exact .of_get?_eq fun k => Overlay.get?_of_empty store k
  | perform parent world request =>
    cases context? with
    | none => exact ⟨h, hsame⟩
    | some context =>
      refine ⟨⟨hinOrder, ?_⟩, hsame⟩
      rintro _ ⟨⟩
      exact (h.staged context rfl).trans (Controller.perform_precedes himport store parent
        ⟨context, cache, world, []⟩ (h.inOrder.staged context rfl))
  | commit logsEvents listener =>
    cases context? with
    | none => exact ⟨h, hsame⟩
    | some context =>
      have hwritten : Readable.Precedes store (store.write context.updates) :=
        (h.staged context rfl).trans (.of_get?_eq (Overlay.get?_of_write store context.updates))
      exact ⟨⟨hinOrder, fun context hnone => by cases hnone⟩, hwritten⟩
  | drop => exact ⟨⟨hinOrder, fun context hnone => by cases hnone⟩, hsame⟩
  | latestCompatible stack current => exact ⟨⟨hinOrder, h.staged⟩, hsame⟩
  | invalidate => exact ⟨⟨hinOrder, h.staged⟩, hsame⟩

/-- No run takes a chainlet down. -/
theorem Climbing.run {n : Node} (h : n.Climbing) {actions : List (Action ω)}
    (himport : ∀ action ∈ actions, action.isImport = false) :
    (n.run actions).Climbing ∧ Readable.Precedes n.store (n.run actions).store := by
  refine run_induction (P := fun n' => n'.Climbing ∧ Readable.Precedes n.store n'.store)
    (fun n' action hallowed hn' => ?_) himport ⟨h, .refl n.store⟩
  obtain ⟨hclimbing, hprecedes⟩ := hn'.1.step hallowed
  exact ⟨hclimbing, hn'.2.trans hprecedes⟩

theorem climbing_begin {genesis : Genesis} (hgenesis : genesis.WellFormed) (height : Height)
    (time : Time) (parent : Parent ω) (world : ω) :
    (start.run (begin genesis height time parent world)).Climbing where
  inOrder := inOrder_begin hgenesis height time parent world
  staged context _ := by
    have hempty :
        Registry.empty.ShownBy (start.run (begin genesis height time parent world)).store := .empty
    intro chainId c hc
    have hnone := hempty.chainlet?_eq_some_iff.1 hc
    cases hnone

/-- **In a run, chainlets climb one series at a time.** From a well-formed genesis state on,
whatever the host does short of another import and whatever the parent chain answers, an operation
in the open context keeps the series of every chainlet, and its version too while an upgrade is
pending, unless it accepts a confirmation for the chainlet; then the pending upgrade is completed,
and its target is in the next series. And in the committed stores no series of a chainlet is below
an earlier one. -/
theorem series_run {genesis : Genesis} (hgenesis : genesis.WellFormed) (height : Height)
    (time : Time) (parent₀ : Parent ω) (world₀ : ω) {actions : List (Action ω)}
    (himport : ∀ action ∈ actions, action.isImport = false) :
    let n := (start.run (begin genesis height time parent₀ world₀)).run actions
    (∀ context, n.context? = some context → ∀ (parent : Parent ω) (world : ω) (request : Request),
      request.isImport = false →
      let after := Controller.perform n.store parent request ⟨context, n.cache, world, []⟩
      ∀ chainId c, Readable.chainlet? (Overlay.mk n.store context.updates) chainId = .ok (some c) →
        ∃ c', Readable.chainlet? (Overlay.mk n.store after.2.context.updates) chainId =
            .ok (some c') ∧
          (c.StaysPut c' ∨ request.Confirms chainId ∧
            after.1 = .ok (.answer (.success EmptyPayload.mk)) ∧ c.Completes c')) ∧
    ∀ more : List (Action ω), (∀ action ∈ more, action.isImport = false) →
      ∀ chainId c, Readable.chainlet? n.store chainId = .ok (some c) →
        ∃ c', Readable.chainlet? (n.run more).store chainId = .ok (some c') ∧
          ∃ s t : Series, s.Has c.version ∧ t.Has c'.version ∧ s.compare t ≠ .gt := by
  intro n
  have hclimbing : n.Climbing := ((climbing_begin hgenesis _ _ _ _).run himport).1
  constructor
  · intro context hcontext parent world request hrequest after chainId c hc
    have horderly := hclimbing.inOrder.staged context hcontext
    exact Controller.perform_series hrequest n.store parent ⟨context, n.cache, world, []⟩
      horderly hc
  · intro more hmore chainId c hc
    obtain ⟨reg, hreg, hshows⟩ := hclimbing.inOrder.committed
    have hsound := (hreg.chainlets chainId c (hshows.chainlet?_eq_some_iff.1 hc)).2
    obtain ⟨s, hs⟩ := hreg.exists_series hsound.registered
    obtain ⟨c', hc', hprecedes⟩ := (hclimbing.run hmore).2 chainId c hc
    obtain ⟨t, ht, hle⟩ := hprecedes s hs
    refine ⟨c', hc', s, t, hs, ht, fun habove => ?_⟩
    have hlt := Series.compare_eq_gt_iff.1 habove
    omega

/-! ### A confirmation -/

/-- A parent chain on which the chainlet of the genesis state `upgrading` is tracked, over the
channel of its pending upgrade. -/
def tracked : Host.World :=
  { Host.World.initial.setChannel Channel.port "channel-0" ⟨.isOpen, ["connection-0"]⟩ with
    consumers := OrderedMap.insert ∅ "1" { Host.Consumer.blank with client? := some "client-1" }
    connections := OrderedMap.insert ∅ "connection-0" "client-1"
    heights := OrderedMap.insert ∅ "client-1" ⟨7⟩ }

/-- The chainlet of the genesis state `upgrading`. -/
def waiting : Chainlet := upgrading.chainlets.head (by decide)

/-- The genesis state is committed, and the next context is opened. -/
def reopened : List (Action Host.World) := [.commit true .listening, .openContext ⟨2⟩ ⟨0⟩]

/-- The packet with which the chainlet confirms its pending upgrade. -/
def confirmation : Packet :=
  ⟨⟨1⟩, Channel.port, "channel-9", Channel.port, "channel-0",
    PacketData.encode (.confirm "alpha_1-1" 9 "1-to-2"), ⟨100⟩, ⟨100⟩⟩

theorem trusted_waiting :
    waiting.TrustedOver (Host.World.parent true) tracked Channel.port "channel-0" where
  leads := ⟨⟨"1"⟩, "client-1", rfl, by decide +kernel, rfl, .isOpen, "connection-0",
    by decide +kernel, by decide +kernel⟩
  recorded := by
    rintro _ ⟨⟩
    rfl

theorem reaches_confirmation {o : Overlay}
    (hfound : Readable.chainlet? o "alpha_1-1" = .ok (some waiting)) :
    (Callback.received confirmation).Reaches (Host.World.parent true) tracked o
      (.confirm "alpha_1-1" 9 "1-to-2") .confirmed waiting
      (.complete ⟨"2.0.0", ⟨10⟩, "channel-0"⟩) where
  tells := .confirmed (PacketData.decode_encode (.confirm "alpha_1-1" 9 "1-to-2"))
    (by decide +kernel)
  found := hfound
  trusted := trusted_waiting
  moves := by decide +kernel

/-- What the confirmation writes. -/
theorem updates_confirmation {store : Store} (cache : TreeCache)
    (hfound : Readable.chainlet? (Overlay.mk store ∅) "alpha_1-1" = .ok (some waiting)) :
    (Controller.perform store (Host.World.parent true) (.receive confirmation)
      ⟨.fresh ⟨2⟩ ⟨0⟩, cache, tracked, []⟩).2.context.updates =
        Operation.written waiting (.complete ⟨"2.0.0", ⟨10⟩, "channel-0"⟩) ∅ := by
  have hreaches : (Callback.received confirmation).Reaches (Host.World.parent true)
      (Live.mk (.fresh ⟨2⟩ ⟨0⟩) cache tracked []).world
      (Overlay.mk store (Live.mk (.fresh ⟨2⟩ ⟨0⟩) cache tracked []).context.updates)
      (.confirm "alpha_1-1" 9 "1-to-2") .confirmed waiting
      (.complete ⟨"2.0.0", ⟨10⟩, "channel-0"⟩) := reaches_confirmation hfound
  have hrequest : (Callback.received confirmation).request = .receive confirmation := rfl
  obtain ⟨-, hupdates⟩ := Callback.perform_of_reaches hreaches (by decide +kernel)
  rw [hrequest] at hupdates
  exact hupdates

theorem version_confirmation {store : Store} {cache : TreeCache} {c' : Chainlet}
    (hfound : Readable.chainlet? (Overlay.mk store ∅) "alpha_1-1" = .ok (some waiting))
    (hread : Readable.chainlet? (Overlay.mk store (Operation.written waiting
      (.complete ⟨"2.0.0", ⟨10⟩, "channel-0"⟩) ∅)) "alpha_1-1" =
        .ok (some { waiting with version := "2.0.0", upgrade? := none }))
    (hc' : Readable.chainlet? (Overlay.mk store (Controller.perform store (Host.World.parent true)
      (.receive confirmation) ⟨.fresh ⟨2⟩ ⟨0⟩, cache, tracked, []⟩).2.context.updates)
        "alpha_1-1" = .ok (some c')) : c'.version = "2.0.0" := by
  rw [updates_confirmation cache hfound, hread] at hc'
  cases hc'
  rfl

/-- A node that has committed the genesis state `upgrading`, and has opened the next context. -/
def resumed : Node :=
  (start.run (begin upgrading ⟨1⟩ ⟨0⟩ (Host.World.parent true) tracked)).run reopened

/-- The chainlet confirms its pending upgrade, and that is committed. -/
def confirmed : List (Action Host.World) :=
  [.perform (Host.World.parent true) tracked (.receive confirmation), .commit true .listening]

theorem series_confirmation :
    upgrading.WellFormed ∧ (∀ action ∈ reopened, action.isImport = false) ∧
      resumed.context? = some (.fresh ⟨2⟩ ⟨0⟩) ∧ (Request.receive confirmation).isImport = false ∧
      (∀ action ∈ confirmed, action.isImport = false) ∧
      Readable.chainlet? (Overlay.mk resumed.store ∅) "alpha_1-1" = .ok (some waiting) ∧
      (∃ c', Readable.chainlet? (Overlay.mk resumed.store (Controller.perform resumed.store
          (Host.World.parent true) (.receive confirmation)
          ⟨.fresh ⟨2⟩ ⟨0⟩, resumed.cache, tracked, []⟩).2.context.updates) "alpha_1-1" =
            .ok (some c') ∧
        (Controller.perform resumed.store (Host.World.parent true) (.receive confirmation)
          ⟨.fresh ⟨2⟩ ⟨0⟩, resumed.cache, tracked, []⟩).1 =
            .ok (.answer (.success EmptyPayload.mk)) ∧ waiting.Completes c') ∧
      ∃ c', Readable.chainlet? (resumed.run confirmed).store "alpha_1-1" = .ok (some c') ∧
        ∃ s t : Series, s.Has waiting.version ∧ t.Has c'.version ∧ s.compare t ≠ .gt := by
  have himport : ∀ action ∈ reopened, action.isImport = false := by
    simp [reopened, Action.isImport]
  have hmore : ∀ action ∈ confirmed, action.isImport = false := by
    simp [confirmed, Action.isImport, Request.isImport]
  have hcontext : resumed.context? = some (.fresh ⟨2⟩ ⟨0⟩) := rfl
  have hcommitted : Readable.chainlet? resumed.store "alpha_1-1" = .ok (some waiting) := by
    decide +kernel
  have hfound : Readable.chainlet? (Overlay.mk resumed.store ∅) "alpha_1-1" =
      .ok (some waiting) := by decide +kernel
  have hread : Readable.chainlet? (Overlay.mk resumed.store (Operation.written waiting
      (.complete ⟨"2.0.0", ⟨10⟩, "channel-0"⟩) ∅)) "alpha_1-1" =
        .ok (some { waiting with version := "2.0.0", upgrade? := none }) := by
    decide +kernel
  have hrun := series_run wellFormed_upgrading ⟨1⟩ ⟨0⟩ (Host.World.parent true) tracked himport
  rw [show (start.run (begin upgrading ⟨1⟩ ⟨0⟩ (Host.World.parent true) tracked)).run reopened =
    resumed from rfl] at hrun
  obtain ⟨hsteps, hstores⟩ := hrun
  refine ⟨wellFormed_upgrading, himport, hcontext, rfl, hmore, hfound, ?_, ?_⟩
  · obtain ⟨c', hc', hstays | ⟨-, hok, hcompletes⟩⟩ :=
      hsteps _ hcontext (Host.World.parent true) tracked (.receive confirmation) rfl "alpha_1-1"
        waiting hfound
    · have hversion := version_confirmation hfound hread hc'
      rw [hstays.2 rfl] at hversion
      exact absurd hversion (by decide)
    · exact ⟨c', hc', hok, hcompletes⟩
  · exact hstores confirmed hmore "alpha_1-1" waiting hcommitted

end Node

end Chainlets
