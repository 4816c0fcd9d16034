import Chainlets.Host.World
import Chainlets.Proofs.Node.Basic
import Chainlets.Proofs.Registry.Callbacks
import Chainlets.Proofs.Registry.Genesis
import Chainlets.Proofs.Registry.Scan

/-!
# The registries of a node stay well-formed

A node starts with an empty store, imports a genesis state in its first context, and never imports
one again. What it does in between is arbitrary, and so are the answers of the parent chain. Then
the registry that is committed and the one that the open context sees are well-formed at any time.

Every operation makes moves or is a callback, or fails and leaves the registry as it was. Moves and
callbacks keep a registry well-formed. Committing makes the registry of the open context the
committed one, and a context that is opened or dropped begins from the committed one again.

## Main definitions

* `Orderly` — a state shows a well-formed registry.
* `Node.InOrder` — the store does, and so does the open context.

## Main results

* `Controller.perform_moves` — **every operation that is no import and no callback makes moves.**
* `Node.inOrder_run` — **every run leaves the registries well-formed.**
-/

namespace Chainlets

open Execution

/-! ### Operations of the controller -/

namespace Controller

variable {ω α : Type} {reg : Registry}

/-- An operation ensures what its execution does, or fails and leaves the registry as it was. -/
theorem execute_ensures {x : Execution ω α} {Q : α → Registry → Prop} (hx : x.Ensures reg Q)
    (store : Store) (parent : Parent ω) (live : Live ω)
    (hshows : reg.ShownBy (Overlay.mk store live.context.updates)) :
    let after := execute store parent x live
    (∃ a reg', after.1 = .ok a ∧ Q a reg' ∧
      reg'.ShownBy (Overlay.mk store after.2.context.updates)) ∨
    ∃ failure, after.1 = .error failure ∧
      reg.ShownBy (Overlay.mk store after.2.context.updates) := by
  intro after
  rcases execute_ends store parent x live with
    ⟨a, m', hrun, hresult, hcontext⟩ | ⟨failure, m', -, hresult, hupdates, -⟩
  · obtain ⟨reg', hshows', hQ⟩ := hx _ _ a m' hshows hrun
    exact .inl ⟨a, reg', hresult, hQ, by rwa [hcontext]⟩
  · exact .inr ⟨failure, hresult, by rwa [hupdates]⟩

/-- Whether a request is neither an import nor a callback. -/
def isMove : Request → Bool
  | .importGenesis _ | .receive _ | .acknowledged .. | .timedOut _ => false
  | .handle _ | .setStatus .. | .beginBlock => true

/-- A request that is no import makes moves, or is a callback. -/
theorem isMove_or_callback {request : Request} (h : request.isImport = false) :
    isMove request = true ∨ ∃ cb : Callback, cb.request = request := by
  cases request with
  | importGenesis genesis => cases h
  | handle msg => exact .inl rfl
  | setStatus chainId status => exact .inl rfl
  | receive packet => exact .inr ⟨.received packet, rfl⟩
  | acknowledged packet answer => exact .inr ⟨.answered packet answer, rfl⟩
  | timedOut packet => exact .inr ⟨.expired packet, rfl⟩
  | beginBlock => exact .inl rfl

/-- A request that is no import and no callback ensures what its execution does, or fails and leaves
the registry as it was. -/
theorem perform_ensures {request : Request} (hrequest : isMove request = true)
    {Q : Registry → Prop} (hrefl : Q reg)
    (hmessage : ∀ msg, request = .handle msg → msg.check = .ok () →
      (Operation.ofMessage msg : Execution ω Unit).Ensures reg fun _ => Q)
    (hstatus : ∀ chainId status, request = .setStatus chainId status →
      (Operation.setStatus chainId status : Execution ω Bool).Ensures reg fun _ => Q)
    (hblock : request = .beginBlock →
      (Operation.beginBlock : Execution ω Unit).Ensures reg fun _ => Q)
    (store : Store) (parent : Parent ω) (live : Live ω)
    (hshows : reg.ShownBy (Overlay.mk store live.context.updates)) :
    ∃ reg', Q reg' ∧
      reg'.ShownBy (Overlay.mk store (perform store parent request live).2.context.updates) := by
  have hexecute {β : Type} {x : Execution ω β} (hx : x.Ensures reg fun _ => Q) :
      ∃ reg', Q reg' ∧
        reg'.ShownBy (Overlay.mk store (execute store parent x live).2.context.updates) := by
    rcases execute_ensures hx store parent live hshows with
      ⟨_, reg', -, hQ, hshows'⟩ | ⟨_, -, hshows'⟩
    · exact ⟨reg', hQ, hshows'⟩
    · exact ⟨reg, hrefl, hshows'⟩
  cases request with
  | importGenesis genesis => cases hrequest
  | handle msg =>
    change ∃ reg' : Registry, _ ∧ reg'.ShownBy
      (Overlay.mk store (handle store parent msg live).2.context.updates)
    rw [handle]
    split
    next => exact ⟨reg, hrefl, hshows⟩
    next hcheck => exact hexecute (hmessage msg rfl hcheck)
  | setStatus chainId status => exact hexecute ((hstatus chainId status rfl).map fun _ _ h => h)
  | receive packet => cases hrequest
  | acknowledged packet answer => cases hrequest
  | timedOut packet => cases hrequest
  | beginBlock => exact hexecute ((hblock rfl).bind fun _ _ h => .pure h)

/-- **Every operation that is no import and no callback makes moves.** -/
theorem perform_moves {request : Request} (hrequest : isMove request = true)
    (hreg : reg.WellFormed) {store : Store} (parent : Parent ω) (live : Live ω)
    (hshows : reg.ShownBy (Overlay.mk store live.context.updates)) :
    ∃ reg', reg.Moves reg' ∧
      reg'.ShownBy (Overlay.mk store (perform store parent request live).2.context.updates) := by
  refine perform_ensures hrequest (.refl reg) (fun msg _ hcheck => ?_) (fun chainId status _ => ?_)
    (fun _ => ?_) store parent live hshows
  · exact Operation.advances_ofMessage hcheck reg hreg
  · exact Operation.advances_setStatus chainId status reg hreg
  · exact Operation.advances_beginBlock reg hreg

/-- Every operation that imports nothing keeps the registry well-formed. -/
theorem perform_wellFormed {request : Request} (himport : request.isImport = false)
    (hreg : reg.WellFormed) {store : Store} (parent : Parent ω) (live : Live ω)
    (hshows : reg.ShownBy (Overlay.mk store live.context.updates)) :
    ∃ reg' : Registry, reg'.WellFormed ∧
      reg'.ShownBy (Overlay.mk store (perform store parent request live).2.context.updates) := by
  rcases isMove_or_callback himport with hmove | ⟨cb, rfl⟩
  · obtain ⟨reg', hmoves, hshows'⟩ := perform_moves hmove hreg parent live hshows
    exact ⟨reg', hmoves.wellFormed hreg, hshows'⟩
  · obtain ⟨reg', hsame | hsettles, hshows'⟩ := cb.perform_eq_or_settles hreg parent live hshows
    · exact ⟨reg', hsame ▸ hreg, hshows'⟩
    · exact ⟨reg', hsettles.wellFormed hreg, hshows'⟩

/-- The import of a genesis state over an empty registry leaves that of the genesis state, or fails
and leaves the registry empty. -/
theorem perform_import (genesis : Genesis) (store : Store) (parent : Parent ω) (live : Live ω)
    (hshows : Registry.empty.ShownBy (Overlay.mk store live.context.updates)) :
    ∃ reg', (reg' = genesis.registry ∨ reg' = Registry.empty) ∧
      reg'.ShownBy (Overlay.mk store
        (perform store parent (.importGenesis genesis) live).2.context.updates) := by
  have himport : (do Operation.importGenesis genesis; return .done : Execution ω Response).Ensures
      Registry.empty fun _ reg' => reg' = genesis.registry :=
    (Operation.importGenesis_ensures genesis).bind fun _ _ heq => .pure heq
  rcases execute_ensures himport store parent live hshows with
    ⟨_, reg', -, heq, hshows'⟩ | ⟨_, -, hshows'⟩
  · exact ⟨reg', .inl heq, hshows'⟩
  · exact ⟨Registry.empty, .inr rfl, hshows'⟩

end Controller

/-! ### Nodes -/

/-- A state shows a well-formed registry. -/
def Orderly {κ : Type} [Readable κ] (r : κ) : Prop :=
  ∃ reg : Registry, reg.WellFormed ∧ reg.ShownBy r

namespace Node

/-- What is committed is in order, and so is what the open context sees. -/
structure InOrder (n : Node) : Prop where
  committed : Orderly n.store
  staged : ∀ context, n.context? = some context →
    Orderly (Overlay.mk n.store context.updates)

/-- Whether an action imports a genesis state. -/
def Action.isImport {ω : Type} : Action ω → Bool
  | .perform _ _ request => request.isImport
  | _ => false

variable {ω : Type}

/-- A node without an open context is in order when its store is. -/
theorem InOrder.closed {store : Store} (h : Orderly store) (cache : TreeCache) :
    (Node.mk store cache none).InOrder where
  committed := h
  staged context hcontext := by cases hcontext

/-- **Every action that imports nothing keeps a node in order.** -/
theorem InOrder.step {n : Node} (h : n.InOrder) {action : Action ω}
    (himport : action.isImport = false) : (n.step action).InOrder := by
  obtain ⟨store, cache, context?⟩ := n
  cases action with
  | openContext height time =>
    cases context? with
    | some context => exact h
    | none =>
      obtain ⟨reg, hreg, hshows⟩ := h.committed
      refine ⟨h.committed, ?_⟩
      rintro _ ⟨⟩
      exact ⟨reg, hreg, hshows.opened⟩
  | perform parent world request =>
    cases context? with
    | none => exact h
    | some context =>
      obtain ⟨reg, hreg, hshows⟩ := h.staged context rfl
      have hafter := Controller.perform_wellFormed himport hreg parent
        ⟨context, cache, world, []⟩ hshows
      refine ⟨h.committed, ?_⟩
      rintro _ ⟨⟩
      exact hafter
  | commit logsEvents listener =>
    cases context? with
    | none => exact h
    | some context =>
      obtain ⟨reg, hreg, hshows⟩ := h.staged context rfl
      exact .closed ⟨reg, hreg, hshows.write⟩ _
  | drop => exact .closed h.committed cache
  | latestCompatible stack current => exact ⟨h.committed, h.staged⟩
  | invalidate => exact ⟨h.committed, h.staged⟩

/-- The actions by which a node gets its genesis state. -/
def begin (genesis : Genesis) (height : Height) (time : Time) (parent : Parent ω) (world : ω) :
    List (Action ω) :=
  [.openContext height time, .perform parent world (.importGenesis genesis)]

/-- Nothing is committed by then, and the open context sees the registry of the genesis state, or
none if the import failed. -/
theorem shows_begin (genesis : Genesis) (height : Height) (time : Time) (parent : Parent ω)
    (world : ω) : let n := start.run (begin genesis height time parent world)
    Registry.empty.ShownBy n.store ∧ ∀ context, n.context? = some context →
      ∃ reg, (reg = genesis.registry ∨ reg = Registry.empty) ∧
        reg.ShownBy (Overlay.mk n.store context.updates) := by
  refine ⟨.empty, ?_⟩
  rintro _ ⟨⟩
  exact Controller.perform_import genesis ∅ parent ⟨.fresh height time, .unloaded, world, []⟩
    Registry.ShownBy.empty.opened

theorem inOrder_begin {genesis : Genesis} (hgenesis : genesis.WellFormed) (height : Height)
    (time : Time) (parent : Parent ω) (world : ω) :
    (start.run (begin genesis height time parent world)).InOrder := by
  obtain ⟨hempty, hstaged⟩ := shows_begin genesis height time parent world
  refine ⟨⟨Registry.empty, Registry.wellFormed_empty, hempty⟩, fun context hcontext => ?_⟩
  obtain ⟨reg, hreg, hshows⟩ := hstaged context hcontext
  refine ⟨reg, ?_, hshows⟩
  rcases hreg with rfl | rfl
  · exact hgenesis.registry
  · exact Registry.wellFormed_empty

/-- **Every run leaves the registries well-formed**: from a well-formed genesis state on, whatever
the host does short of another import, and whatever the parent chain answers, the committed registry
and that of the open context are well-formed. -/
theorem inOrder_run {genesis : Genesis} (hgenesis : genesis.WellFormed) (height : Height)
    (time : Time) (parent : Parent ω) (world : ω) {actions : List (Action ω)}
    (himport : ∀ action ∈ actions, action.isImport = false) :
    ((start.run (begin genesis height time parent world)).run actions).InOrder :=
  run_induction (P := InOrder) (fun _ _ hallowed h => h.step hallowed) himport
    (inOrder_begin hgenesis height time parent world)

/-- A genesis state with a consumer that has a breaking upgrade pending. -/
def upgrading : Genesis where
  params := {}
  catalog := [⟨"alpha", "", [],
    [⟨"a", "1.0.0", "a", true, true⟩, ⟨"b", "2.0.0", "b", true, true⟩]⟩]
  chainlets := [
    { chainId := "alpha_1-1", name := "first", launcher := "launcher", maintainers := ["launcher"]
      stack := "alpha", version := "1.0.0", status := .online, autoUpgrade := true
      isConsumer := true, consumer? := some ⟨"1"⟩, spawnTime := ⟨0⟩, isService := false
      upgrade? := some ⟨"2.0.0", ⟨10⟩, "channel-0"⟩ }]

theorem wellFormed_upgrading : upgrading.WellFormed where
  accepted := rfl
  consumer c hc := by
    rw [List.mem_singleton.1 hc]
    decide
  upgrade c hc upgrade hupgrade := by
    rw [List.mem_singleton.1 hc] at hupgrade ⊢
    cases hupgrade
    exact ⟨rfl, ⟨_, List.mem_singleton_self _, rfl, by decide +kernel⟩, rfl⟩

/-- The genesis state is committed; then the chainlet is taken offline, a stack is created, and that
is committed too. -/
def afterwards : List (Action Host.World) :=
  let parent := Host.World.parent true
  [.commit true .listening,
    .openContext ⟨2⟩ ⟨0⟩,
    .perform parent .initial (.setStatus "alpha_1-1" .offline),
    .perform parent .initial (.handle (.createStack
      ⟨"manager", "beta", "", "c", "1.0.0", "c", [⟨"psaga", default, default⟩], false⟩)),
    .commit true .listening]

theorem inOrder_afterwards :
    let n := (start.run (begin upgrading ⟨1⟩ ⟨0⟩ (Host.World.parent true) .initial)).run afterwards
    upgrading.WellFormed ∧ (∀ action ∈ afterwards, action.isImport = false) ∧ n.InOrder ∧
      (Readable.chainletCount n.store).toOption = some 1 ∧
      ((Readable.allStacks n.store).map List.length).toOption = some 2 := by
  have himport : ∀ action ∈ afterwards, action.isImport = false := by
    simp [afterwards, Action.isImport, Request.isImport]
  refine ⟨wellFormed_upgrading, himport, ?_, ?_⟩
  · exact inOrder_run wellFormed_upgrading _ _ _ _ himport
  · decide +kernel

end Node

end Chainlets
