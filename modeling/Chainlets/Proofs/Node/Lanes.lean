import Chainlets.Proofs.Node.Registry
import Chainlets.Proofs.Registry.Appends
import Chainlets.Proofs.Registry.Lanes

/-!
# Requests stay in their lane

Whatever is asked of the module, short of importing a genesis state, the registry only grows by it;
and how it may grow is bounded by what was asked for. A message about a stack leaves all chainlets
alone. What names a chainlet — a message, a change of its status, a packet — leaves all other
chainlets and all stacks alone, and a packet that cannot be read names none. The beginning of a
block leaves the stacks alone, and of the chainlets all records that take no part in automatic
upgrades.

This holds over any well-formed registry, for any answers of the parent chain, and whatever the
version tree of the context is.

## Main definitions

* `Request.chainId?` — the chainlet that is named.
* `Registry.InLane` — what a request leaves alone.

## Main results

* `Controller.perform_appends_inLane` — **a request appends to the registry, in its lane.**
-/

namespace Chainlets

open Execution

/-- The chainlet that a message names. -/
def Message.chainId? : Message → Option String
  | .createStack _ | .addVersion _ | .disableVersion _ => none
  | .launch msg => some msg.chainId
  | .requestUpgrade msg => some msg.chainId
  | .cancelUpgrade msg => some msg.chainId

/-- The chainlet that a packet names, if its content can be read. -/
def Packet.chainId? (packet : Packet) : Option String :=
  (PacketData.decode packet.data).toOption.map PacketData.chainId

namespace Request

/-- The chainlet that a request names. -/
def chainId? : Request → Option String
  | .handle msg => msg.chainId?
  | .setStatus chainId _ => some chainId
  | .receive packet | .acknowledged packet _ | .timedOut packet => packet.chainId?
  | .importGenesis _ | .beginBlock => none

/-- Whether a request is a message about a stack. -/
def isOfStack : Request → Bool
  | .handle (.createStack _) | .handle (.addVersion _) | .handle (.disableVersion _) => true
  | _ => false

/-- Whether a request is the launch of a chainlet. -/
def isLaunch : Request → Bool
  | .handle (.launch _) => true
  | _ => false

end Request

theorem Callback.chainId?_request (cb : Callback) : cb.request.chainId? = cb.packet.chainId? := by
  cases cb <;> rfl

namespace Registry

variable {reg reg' : Registry} {request : Request}

/-- What a request leaves alone. -/
structure InLane (request : Request) (reg reg' : Registry) : Prop where
  /-- Only messages about stacks change the stacks. -/
  catalog : request.isOfStack = false → reg'.catalog = reg.catalog
  /-- Only launches change the number of chainlets. -/
  count : request.isLaunch = false → reg'.count = reg.count
  /-- What is not named is not changed, except at the beginning of a block. -/
  others : request ≠ .beginBlock → ∀ chainId, request.chainId? ≠ some chainId →
    reg'.chainlets.get? chainId = reg.chainlets.get? chainId ∧
      reg'.waiting.get? chainId = reg.waiting.get? chainId
  /-- The beginning of a block changes records that take part in automatic upgrades. -/
  swept : request = .beginBlock → ∀ chainId, ¬ reg.TakesPart chainId →
    reg'.chainlets.get? chainId = reg.chainlets.get? chainId

namespace InLane

theorem refl (request : Request) (reg : Registry) : reg.InLane request reg :=
  ⟨fun _ => rfl, fun _ => rfl, fun _ _ _ => ⟨rfl, rfl⟩, fun _ _ _ => rfl⟩

/-- A request about a stack writes stacks. -/
theorem of_catalog (h : reg' = { reg with catalog := reg'.catalog })
    (hstack : request.isOfStack = true) : reg.InLane request reg' where
  catalog hother := by
    rw [hstack] at hother
    cases hother
  count _ := by rw [h]
  others _ _ _ := by
    rw [h]
    exact ⟨rfl, rfl⟩
  swept _ _ _ := by rw [h]

/-- A request that names a chainlet writes what is kept of it. -/
theorem of_confined {chainId : String} (h : reg.Confined (· = chainId) (· = chainId) reg')
    (hnamed : request.chainId? = some chainId) : reg.InLane request reg' := by
  have hne : ∀ {other : String}, request.chainId? ≠ some other → other ≠ chainId :=
    fun hother heq => hother (heq ▸ hnamed)
  refine ⟨fun _ => h.catalog, fun _ => h.count,
    fun _ _ hother => ⟨h.chainlets (hne hother), h.waiting (hne hother)⟩, ?_⟩
  rintro rfl
  cases hnamed

end InLane

end Registry

/-! ### Operations -/

namespace Operation

variable {ω : Type} {reg : Registry}

theorem inLane_ofMessage (hreg : reg.Filed) (msg : Message) :
    (ofMessage msg : Execution ω Unit).Ensures reg fun _ => reg.InLane (.handle msg) := by
  cases msg with
  | createStack msg =>
    exact (createStack_catalog msg).mono fun _ _ hreg' => .of_catalog hreg' rfl
  | addVersion msg => exact (addVersion_catalog msg).mono fun _ _ hreg' => .of_catalog hreg' rfl
  | disableVersion msg =>
    exact (disableVersion_catalog msg).mono fun _ _ hreg' => .of_catalog hreg' rfl
  | launch msg =>
    refine (launch_launches msg).mono ?_
    rintro _ _ ⟨c, count, hid, -, rfl⟩
    have hwritten : reg.Confined (· = msg.chainId) (· = msg.chainId)
        ((reg.await? c.chainId c.consumer?).putChainlet c) := by
      refine Registry.Confined.trans (.await? reg ?_ c.consumer?) (.putChainlet _ ?_)
      · exact hid
      · exact hid
    refine ⟨fun _ => hwritten.catalog, nofun, fun _ chainId hother => ?_, nofun⟩
    have hne : chainId ≠ msg.chainId := fun heq => hother (heq ▸ rfl)
    exact ⟨hwritten.chainlets hne, hwritten.waiting hne⟩
  | requestUpgrade msg =>
    exact (confined_requestUpgrade hreg msg).mono fun _ _ h => .of_confined h.1 rfl
  | cancelUpgrade msg =>
    exact .of_unwritten (unwritten_of_noting (noting_cancelUpgrade msg)) fun _ => .refl _ reg

theorem inLane_beginBlock (hreg : reg.Filed) :
    (beginBlock : Execution ω Unit).Ensures reg fun _ => reg.InLane .beginBlock :=
  (confined_beginBlock hreg).mono fun _ _ hconfined =>
    ⟨fun _ => hconfined.catalog, fun _ => hconfined.count, fun hne => absurd rfl hne,
      fun _ _ hout => hconfined.chainlets hout⟩

end Operation

namespace Controller

variable {ω : Type} {reg : Registry} {request : Request}

/-- A request that is no callback stays in its lane. -/
theorem perform_inLane (hrequest : isMove request = true) (hreg : reg.Filed) {store : Store}
    (parent : Parent ω) (live : Live ω)
    (hshows : reg.ShownBy (Overlay.mk store live.context.updates)) :
    ∃ reg', reg.InLane request reg' ∧
      reg'.ShownBy (Overlay.mk store (perform store parent request live).2.context.updates) := by
  refine perform_ensures hrequest (.refl request reg) ?_ ?_ ?_ store parent live hshows
  · rintro msg rfl -
    exact Operation.inLane_ofMessage hreg msg
  · rintro chainId status rfl
    exact (Operation.confined_setStatus hreg chainId status).mono fun _ _ hconfined =>
      .of_confined hconfined rfl
  · rintro rfl
    exact Operation.inLane_beginBlock hreg

/-- **A request appends to the registry, in its lane**: whatever is asked for short of an import, and
whatever the parent chain answers, over any well-formed registry. -/
theorem perform_appends_inLane (himport : request.isImport = false) (hreg : reg.WellFormed)
    (store : Store) (parent : Parent ω) (live : Live ω)
    (hshows : reg.ShownBy (Overlay.mk store live.context.updates)) :
    ∃ reg', reg'.ShownBy
        (Overlay.mk store (perform store parent request live).2.context.updates) ∧
      reg.Appends reg' ∧ reg.InLane request reg' := by
  rcases isMove_or_callback himport with hmove | ⟨cb, rfl⟩
  · obtain ⟨reg', hmoves, hshows'⟩ := perform_moves hmove hreg parent live hshows
    obtain ⟨reg'', hlane, hshows''⟩ := perform_inLane hmove hreg.filed parent live hshows
    obtain rfl : reg' = reg'' := hshows'.unique hshows''
    exact ⟨reg', hshows', hmoves.appends hreg, hlane⟩
  · rcases cb.perform_settles hreg parent live hshows with
      ⟨-, hshows'⟩ | ⟨data, news, c, t, hreaches, -, hshows'⟩
    · exact ⟨reg, hshows', .refl reg, .refl _ reg⟩
    · obtain ⟨hc, hid⟩ := hreaches.held hreg hshows
      have hconfined : reg.Confined (· = data.chainId) (· = data.chainId)
          (reg.putChainlet (t.apply c)) := by
        refine .putChainlet reg ?_
        rw [t.chainId_apply, hid]
      have hnamed : cb.request.chainId? = some data.chainId := by
        rw [cb.chainId?_request, Packet.chainId?, hreaches.tells.content]
        rfl
      exact ⟨_, hshows', .putChainlet_of_held (by rw [hid, hc]) (.apply c t),
        .of_confined hconfined hnamed⟩

/-- A context into which a genesis state with one chainlet was imported. -/
def imported : Live Host.World :=
  (perform ∅ (Host.World.parent true) (.importGenesis Node.upgrading)
    ⟨.fresh ⟨1⟩ ⟨0⟩, .unloaded, .initial, []⟩).2

/-- A request to take the chainlet offline. -/
def goOffline : Request := .setStatus "alpha_1-1" .offline

/-- What that leaves. -/
def offline : Live Host.World := (perform ∅ (Host.World.parent true) goOffline imported).2

/-- The chainlet is taken offline, and is otherwise as it was. -/
theorem perform_appends_inLane_offline :
    goOffline.isImport = false ∧ ∃ reg reg' : Registry, reg.WellFormed ∧
      reg.ShownBy (Overlay.mk ∅ imported.context.updates) ∧
      reg'.ShownBy (Overlay.mk ∅ offline.context.updates) ∧
      reg.Appends reg' ∧ reg.InLane goOffline reg' ∧
      (reg.chainlets.get? "alpha_1-1").map Chainlet.status = some .online ∧
      (reg'.chainlets.get? "alpha_1-1").map Chainlet.status = some .offline := by
  have himport : goOffline.isImport = false := rfl
  have hordered : Orderly (Overlay.mk ∅ imported.context.updates) :=
    (Node.inOrder_begin Node.wellFormed_upgrading ⟨1⟩ ⟨0⟩ (Host.World.parent true)
      Host.World.initial).staged imported.context rfl
  obtain ⟨reg, hreg, hshows⟩ := hordered
  obtain ⟨reg', hshows', happends, hlane⟩ :=
    perform_appends_inLane himport hreg ∅ (Host.World.parent true) imported hshows
  rw [← offline] at hshows'
  have hbefore : (Readable.chainlet? (Overlay.mk ∅ imported.context.updates)
      "alpha_1-1").toOption.map (·.map Chainlet.status) = some (some .online) := by decide +kernel
  have hafter : (Readable.chainlet? (Overlay.mk ∅ offline.context.updates)
      "alpha_1-1").toOption.map (·.map Chainlet.status) = some (some .offline) := by
    decide +kernel
  rw [hshows.chainlet?_eq] at hbefore
  rw [hshows'.chainlet?_eq] at hafter
  exact ⟨himport, reg, reg', hreg, hshows, hshows', happends, hlane, Option.some.inj hbefore,
    Option.some.inj hafter⟩

end Controller

end Chainlets
