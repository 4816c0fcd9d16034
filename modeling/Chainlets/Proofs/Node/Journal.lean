import Chainlets.Proofs.Node.Coherence
import Chainlets.Proofs.Node.Registry
import Chainlets.Proofs.Registry.BlockActivity

/-!
# The journal of a node

The events of a context are published when it is committed. What a node has published since it
started is its journal. Nothing is done without an event, and no event outlives what it tells of, so
the committed registry is where the journal leads from the genesis state.

A node begins with nothing. Until a genesis state is imported no operation does anything, since each
of them needs something that only a genesis state can put there. Then the import fills the open
context, and leaves no event. From there on each operation makes acts over what the context sees, or
fails and leaves the context with the writes and the events that it had. Committing appends the
events of the context to the journal, and dropping it drops them with its writes.

The import is not asked to be the first action, nor to be accepted, only not to be made twice.

## Main definitions

* `Controller.FailsOver` — a request fails for a reason.
* `Node.journal` — the events that a run publishes.
* `Node.Founded` — a genesis state has been committed.
* `Registry.Follows` — from one registry to another by acts, maybe by way of a genesis state.
* `Node.Traced` — the committed registry follows from nothing along the journal.

## Main results

* `Controller.perform_acted` — **an operation acts, or fails and has done nothing.**
* `Node.exists_traced_run` — **every run without a second import is traced by its journal.**
-/

namespace Chainlets

open Execution

/-! ### Operations of the controller -/

/-- No event is left. -/
def Frame.unheard {ω : Type} : Frame ω :=
  ⟨fun _ m m' => m'.context.events = m.context.events, fun _ _ => rfl, fun h h' => h'.trans h⟩

theorem Execution.unheard_put {ω α : Type} [Stored.Format α] (entry : Entry) (a : α) :
    Keeps Frame.unheard (put entry a : Execution ω Unit) := by
  rw [put]
  split
  · exact fun _ _ => rfl
  · exact Keeps.fail _

namespace Controller

variable {ω α : Type} {reg : Registry} {store : Store} {parent : Parent ω} {live : Live ω}

/-- An operation does what its execution does, or fails and leaves writes and events as they
were. -/
theorem execute_does {x : Execution ω α} {Q : α → List Event → Registry → Prop}
    (hx : x.DoesAt ⟨store, parent, live.cache⟩ ⟨live.context, live.world, live.log⟩ reg Q) :
    let after := execute store parent x live
    (∃ a events reg', after.1 = .ok a ∧
      after.2.context.events = live.context.events ++ events ∧
      reg'.ShownBy (Overlay.mk store after.2.context.updates) ∧ Q a events reg') ∨
    ∃ failure, after.1 = .error failure ∧ after.2.context.updates = live.context.updates ∧
      after.2.context.events = live.context.events ∧
      (reg.params?.isSome = true → failure.isCorruption = false) := by
  intro after
  rcases execute_ends store parent x live with
    ⟨a, m', hrun, hresult, hcontext⟩ | ⟨failure, m', hrun, hresult, hupdates, hevents⟩
  · obtain ⟨events, reg', hevents, hshows, -, hQ⟩ := hx.done hrun
    exact .inl ⟨a, events, reg', hresult, by rw [hcontext, hevents], by rwa [hcontext], hQ⟩
  · exact .inr ⟨failure, hresult, hupdates, hevents, hx.sound hrun⟩

/-- A request fails for a reason. A packet that fails is answered with the wording of the reason. -/
def FailsOver (store : Store) (parent : Parent ω) (request : Request) (live : Live ω)
    (failure : Failure) : Prop :=
  match request with
  | .receive packet => (execute store parent (Operation.receive packet) live).1 = .error failure
  | request => (perform store parent request live).1 = .error failure

/-- What becomes of an operation: it acts, or it fails and has done nothing; and if it fails, that
is no corruption once there are parameters. -/
structure Acted (reg : Registry) (store : Store) (live after : Live ω) (fails : Failure → Prop) :
    Prop where
  acts : ∃ events reg', reg.Acts events reg' ∧
    after.context.events = live.context.events ++ events ∧
    reg'.ShownBy (Overlay.mk store after.context.updates)
  undone : ∀ failure, fails failure → after.context.updates = live.context.updates ∧
    after.context.events = live.context.events
  sound : ∀ failure, fails failure → reg.params?.isSome = true → failure.isCorruption = false

theorem execute_acted {x : Execution ω α}
    (hx : x.DoesAt ⟨store, parent, live.cache⟩ ⟨live.context, live.world, live.log⟩ reg
      fun _ => reg.Acts) (hshows : reg.ShownBy (Overlay.mk store live.context.updates)) :
    Acted reg store live (execute store parent x live).2
      fun failure => (execute store parent x live).1 = .error failure := by
  rcases execute_does hx with
    ⟨a, events, reg', hresult, hevents, hshows', hacts⟩ |
    ⟨failure, hresult, hupdates, hevents, hsound⟩
  · rw [hresult]
    exact ⟨⟨events, reg', hacts, hevents, hshows'⟩, nofun, nofun⟩
  · rw [hresult]
    refine ⟨⟨[], reg, .refl, by rw [hevents, List.append_nil], by rwa [hupdates]⟩, ?_, ?_⟩
    · rintro _ ⟨⟩
      exact ⟨hupdates, hevents⟩
    · rintro _ ⟨⟩
      exact hsound

/-- **An operation acts, or fails and has done nothing**, unless it imports a genesis state. -/
theorem perform_acted {request : Request} (himport : request.isImport = false) (hreg : reg.Filed)
    (hshows : reg.ShownBy (Overlay.mk store live.context.updates))
    (htree : ∀ t, ((tree : Execution ω VersionTree).run ⟨store, parent, live.cache⟩
      ⟨live.context, live.world, live.log⟩).1 = .ok t → t.Indexes reg.catalog) :
    Acted reg store live (perform store parent request live).2
      (FailsOver store parent request live) := by
  have hdone {β : Type} {x : Execution ω β} {f : β → Response}
      (hx : x.Does reg fun _ => reg.Acts) :
      Acted reg store live (execute store parent (f <$> x) live).2
        fun failure => (execute store parent (f <$> x) live).1 = .error failure := by
    have hmapped : (f <$> x).Does reg fun _ => reg.Acts := hx.map fun _ _ _ hacts => hacts
    exact execute_acted (hmapped ⟨store, parent, live.cache⟩ _ hshows) hshows
  cases request with
  | importGenesis genesis => cases himport
  | handle msg =>
    change Acted reg store live (handle store parent msg live).2 fun failure =>
      (handle store parent msg live).1.map (fun _ => Response.done) = .error failure
    rw [handle]
    split
    next failure hcheck =>
      refine ⟨⟨[], reg, .refl, (List.append_nil _).symm, hshows⟩, fun _ _ => ⟨rfl, rfl⟩, ?_⟩
      rintro _ ⟨⟩ -
      exact msg.harmless_check failure hcheck
    next hcheck =>
      obtain ⟨hacts, hundone, hsound⟩ := execute_acted
        (Operation.does_ofMessage hcheck hreg ⟨store, parent, live.cache⟩ _ hshows) hshows
      have hfails {failure : Failure}
          (h : (execute store parent (Operation.ofMessage msg) live).1.map
            (fun _ => Response.done) = .error failure) :
          (execute store parent (Operation.ofMessage msg) live).1 = .error failure := by
        cases hresult : (execute store parent (Operation.ofMessage msg) live).1 with
        | ok u => rw [hresult] at h; cases h
        | error failure' => rw [hresult] at h; cases h; rfl
      exact ⟨hacts, fun failure h => hundone failure (hfails h),
        fun failure h => hsound failure (hfails h)⟩
  | setStatus chainId status => exact hdone (Operation.does_setStatus chainId status hreg)
  | receive packet =>
    have hcallback := execute_acted (x := Operation.receive packet)
      (Operation.does_callback (.received packet) hreg ⟨store, parent, live.cache⟩ _ hshows) hshows
    have hcontext : (perform store parent (.receive packet) live).2.context =
        (execute store parent (Operation.receive packet) live).2.context := by
      change (receive store parent packet live).2.context = _
      rw [receive]
      split
      next heq => rw [heq]
      next heq => rw [heq]
    exact ⟨hcontext ▸ hcallback.acts, hcontext ▸ hcallback.undone, hcallback.sound⟩
  | acknowledged packet answer =>
    exact hdone (Operation.does_callback (.answered packet answer) hreg)
  | timedOut packet => exact hdone (Operation.does_callback (.expired packet) hreg)
  | beginBlock =>
    refine execute_acted ((Operation.doesAt_beginBlock hreg hshows htree).bind ?_) hshows
    intro _ events reg' hacts
    exact .pure (by rwa [List.append_nil])

/-- An error that is returned is what the request fails over. -/
theorem failsOver_of_error {request : Request} {failure : Failure}
    (h : (perform store parent request live).1 = .error failure) :
    FailsOver store parent request live failure := by
  cases request with
  | receive packet => cases h
  | _ => exact h

/-- An error that a packet is answered with is the wording of what the request fails over. -/
theorem exists_failsOver_of_answer {packet : Packet} {text : String}
    (h : (perform store parent (.receive packet) live).1 = .ok (.answer (.error text))) :
    ∃ failure, FailsOver store parent (.receive packet) live failure ∧ failure.message = text := by
  change Except.ok (Response.answer (receive store parent packet live).1) = _ at h
  rw [receive] at h
  split at h
  next => cases h
  next failure _ hfails => cases h; exact ⟨failure, congrArg Prod.fst hfails, rfl⟩

/-- The import of a genesis state over an empty registry leaves that of the genesis state, which has
passed its check, or fails and leaves the registry empty. There are no events in either case. -/
theorem perform_import_cases (genesis : Genesis)
    (hshows : Registry.empty.ShownBy (Overlay.mk store live.context.updates)) :
    let after := (perform store parent (.importGenesis genesis) live).2
    after.context.events = live.context.events ∧
      (Registry.empty.ShownBy (Overlay.mk store after.context.updates) ∨
        genesis.check = .ok () ∧
          genesis.registry.ShownBy (Overlay.mk store after.context.updates)) := by
  have hevents : Keeps Frame.unheard (Operation.importGenesis genesis : Execution ω Unit) := by
    refine (still_liftFailure _).of_still.bind fun _ => (unheard_put _ _).bind fun _ => ?_
    refine (Keeps.forM fun _ _ => unheard_put _ _).bind fun _ => ?_
    refine (Keeps.forM fun _ _ => unheard_put _ _).bind fun _ => (unheard_put _ _).bind fun _ => ?_
    exact fun _ _ => rfl
  have himport : (do Operation.importGenesis genesis; return .done : Execution ω Response).Ensures
      Registry.empty fun _ reg' => genesis.check = .ok () ∧ reg' = genesis.registry := by
    have hchecked : (Operation.importGenesis genesis : Execution ω Unit).Ensures Registry.empty
        fun _ reg' => genesis.check = .ok () ∧ reg' = genesis.registry := by
      intro s m _ m' hshows hrun
      obtain ⟨reg', hshows', hreg'⟩ := Operation.importGenesis_ensures genesis s m _ m' hshows hrun
      obtain ⟨u, _, hcheck, -⟩ := bind_eq_ok.1 hrun
      exact ⟨reg', hshows', (Prod.mk.inj hcheck).1, hreg'⟩
    exact hchecked.bind fun _ _ h => .pure h
  intro after
  constructor
  · rcases execute_ends store parent
      (do Operation.importGenesis genesis; return Response.done) live with
      ⟨_, m', hrun, -, hcontext⟩ | ⟨_, _, -, -, -, hundone⟩
    · rw [show after.context = _ from hcontext]
      exact (hevents.bind fun _ => Keeps.pure _).rel hrun
    · exact hundone
  · rcases execute_ensures himport store parent live hshows with
      ⟨_, reg', -, ⟨hcheck, rfl⟩, hshows'⟩ | ⟨_, -, hshows'⟩
    · exact .inr ⟨hcheck, hshows'⟩
    · exact .inl hshows'

end Controller

/-! ### From the genesis state -/

namespace Registry

/-- From one registry to another by acts, and from the empty one also by way of the genesis state
that has been imported, if it passes its check. -/
inductive Follows (imported? : Option Genesis) : Registry → List Event → Registry → Prop
  | acts {reg reg' : Registry} {events : List Event} (acts : reg.Acts events reg') :
      Follows imported? reg events reg'
  | founded {genesis : Genesis} {reg' : Registry} {events : List Event}
      (imported : imported? = some genesis) (accepted : genesis.check = .ok ())
      (acts : genesis.registry.Acts events reg') : Follows imported? empty events reg'

namespace Follows

variable {imported? : Option Genesis} {reg reg' reg'' : Registry} {events more : List Event}

theorem refl (imported? : Option Genesis) (reg : Registry) : Follows imported? reg [] reg :=
  .acts .refl

/-- Acts after it. -/
theorem concat (h : Follows imported? reg events reg') (hacts : reg'.Acts more reg'') :
    Follows imported? reg (events ++ more) reg'' := by
  cases h with
  | acts acts => exact .acts (acts.trans hacts)
  | founded imported accepted acts => exact .founded imported accepted (acts.trans hacts)

/-- Only what follows from nothing can be the empty registry, and then there was nothing to tell. -/
theorem trans (h : Follows imported? empty events reg) (h' : Follows imported? reg more reg') :
    Follows imported? empty (events ++ more) reg' := by
  cases h' with
  | acts acts => exact h.concat acts
  | founded imported accepted acts =>
    cases h with
    | acts none =>
      obtain ⟨rfl, -⟩ := acts_empty_iff.1 none
      exact .founded imported accepted acts
    | founded _ _ none => cases none.params?_eq

theorem filed (h : Follows imported? reg events reg') (hreg : reg.Filed) : reg'.Filed := by
  cases h with
  | acts acts => exact acts.filed hreg
  | founded imported accepted acts => exact acts.filed (Genesis.check_ok accepted).filed

/-- Once there are parameters there is no way but by acts. -/
theorem acts_of_given (h : Follows imported? reg events reg') (hgiven : reg.params?.isSome = true) :
    reg.Acts events reg' := by
  cases h with
  | acts acts => exact acts
  | founded => cases hgiven

/-- What follows from nothing is nothing, or has parameters. -/
theorem eq_or_given (h : Follows imported? empty events reg) :
    events = [] ∧ reg = empty ∨ (∃ genesis, imported? = some genesis ∧
      genesis.check = .ok () ∧ genesis.registry.Acts events reg) ∧ reg.params?.isSome = true := by
  cases h with
  | acts acts => exact .inl (acts_empty_iff.1 acts)
  | founded imported accepted acts =>
    exact .inr ⟨⟨_, imported, accepted, acts⟩, by rw [acts.params?_eq]; rfl⟩

/-- Before a genesis state is imported there is nothing. -/
theorem eq_of_none (h : Follows none empty events reg) : events = [] ∧ reg = empty := by
  rcases h.eq_or_given with hnone | ⟨⟨_, himported, -⟩, -⟩
  · exact hnone
  · cases himported

end Follows

end Registry

/-! ### Nodes -/

namespace Node

variable {ω : Type}

/-- The genesis state that an action imports. -/
def Action.genesis? : Action ω → Option Genesis
  | .perform _ _ (.importGenesis genesis) => some genesis
  | _ => none

theorem Action.isImport_eq_false {action : Action ω} (h : action.genesis? = none) :
    action.isImport = false := by
  cases action with
  | perform parent world request =>
    cases request with
    | importGenesis genesis => cases h
    | _ => rfl
  | _ => rfl

/-- The events that an action publishes. -/
def published (n : Node) : Action ω → List Event
  | .commit logsEvents listener =>
    match n.context? with
    | none => []
    | some context => (Controller.commit logsEvents listener context n.cache).published
  | _ => []

/-- The events that a run publishes, in order. -/
def journal (n : Node) : List (Action ω) → List Event
  | [] => []
  | action :: actions => n.published action ++ (n.step action).journal actions

/-- What is asked for in the open context of a steady node is done in acts, or it fails and nothing
is done. -/
theorem Steady.acted {n : Node} (h : n.Steady) {context : Context}
    (hcontext : n.context? = some context) {reg : Registry} (hreg : reg.Filed)
    (hshows : reg.ShownBy (Overlay.mk n.store context.updates)) {request : Request}
    (himport : request.isImport = false) (parent : Parent ω) (world : ω) :
    Controller.Acted reg n.store ⟨context, n.cache, world, []⟩
      (Controller.perform n.store parent request ⟨context, n.cache, world, []⟩).2
      (Controller.FailsOver n.store parent request ⟨context, n.cache, world, []⟩) := by
  refine Controller.perform_acted himport hreg hshows fun t ht => ?_
  obtain ⟨t', hrebuilt, hnext⟩ := h.coherent.next context hcontext
  rw [hnext parent world []] at ht
  cases ht
  exact (VersionTree.rebuild_eq_ok_iff hshows.catalog hreg.catalog).1 hrebuilt

/-- A genesis state has been committed: its parameters can be read. -/
def Founded (n : Node) : Prop := ∃ params, Readable.params n.store = .ok params

/-- The committed registry follows from nothing along the journal, and what the open context sees
follows from the committed registry along the events of the context. -/
structure Traced (imported? : Option Genesis) (journal : List Event) (n : Node) (reg : Registry) :
    Prop where
  steady : n.Steady
  committed : reg.ShownBy n.store
  follows : Registry.Follows imported? .empty journal reg
  staged : ∀ context, n.context? = some context → ∃ reg',
    reg'.ShownBy (Overlay.mk n.store context.updates) ∧
      Registry.Follows imported? reg context.events reg'

namespace Traced

variable {imported? : Option Genesis} {journal : List Event} {n : Node} {reg : Registry}

theorem start : Traced none [] Node.start .empty where
  steady := steady_start
  committed := .empty
  follows := .refl none _
  staged context hcontext := by cases hcontext

theorem filed (h : Traced imported? journal n reg) : reg.Filed :=
  h.follows.filed Registry.wellFormed_empty.filed

/-- Once a genesis state has been committed there are parameters, and it is the one that the journal
goes on from. -/
theorem of_founded (h : Traced imported? journal n reg) (hfounded : n.Founded) :
    (∃ genesis, imported? = some genesis ∧ genesis.check = .ok () ∧
      genesis.registry.Acts journal reg) ∧ reg.params?.isSome = true := by
  rcases h.follows.eq_or_given with ⟨-, rfl⟩ | hgiven
  · obtain ⟨params, hparams⟩ := hfounded
    rw [Readable.params, h.committed.params] at hparams
    cases hparams
  · exact hgiven

/-- What is asked for in the open context is done in acts, or it fails and nothing is done. -/
theorem acted (h : Traced imported? journal n reg) {context : Context}
    (hcontext : n.context? = some context) {reg' : Registry}
    (hshows : reg'.ShownBy (Overlay.mk n.store context.updates))
    (hfollows : reg.Follows imported? context.events reg') {request : Request}
    (himport : request.isImport = false) (parent : Parent ω) (world : ω) :
    Controller.Acted reg' n.store ⟨context, n.cache, world, []⟩
      (Controller.perform n.store parent request ⟨context, n.cache, world, []⟩).2
      (Controller.FailsOver n.store parent request ⟨context, n.cache, world, []⟩) :=
  h.steady.acted hcontext (hfollows.filed h.filed) hshows himport parent world

/-- An action that publishes nothing. -/
theorem unpublished (h : Traced imported? journal n reg) {n' : Node} (hsteady : n'.Steady)
    (hstore : n'.store = n.store) (hstaged : ∀ context, n'.context? = some context → ∃ reg',
      reg'.ShownBy (Overlay.mk n'.store context.updates) ∧
        reg.Follows imported? context.events reg') :
    Traced imported? (journal ++ []) n' reg where
  steady := hsteady
  committed := hstore ▸ h.committed
  follows := by rw [List.append_nil]; exact h.follows
  staged := hstaged

/-- **Every action that imports nothing keeps a node traced**, by what it publishes. -/
theorem step (h : Traced imported? journal n reg) {action : Action ω}
    (himport : action.genesis? = none) :
    ∃ reg', Traced imported? (journal ++ n.published action) (n.step action) reg' ∧
      reg.Follows imported? (n.published action) reg' := by
  have hsteady := h.steady.step action
  have hquiet := @unpublished _ _ _ _ h _ hsteady
  obtain ⟨store, cache, context?⟩ := n
  cases action with
  | openContext height time =>
    cases context? with
    | some context => exact ⟨reg, hquiet rfl h.staged, .refl _ _⟩
    | none =>
      refine ⟨reg, hquiet rfl ?_, .refl _ _⟩
      rintro _ ⟨⟩
      exact ⟨reg, h.committed.opened, .refl _ _⟩
  | perform parent world request =>
    cases context? with
    | none => exact ⟨reg, hquiet rfl h.staged, .refl _ _⟩
    | some context =>
      refine ⟨reg, hquiet rfl ?_, .refl _ _⟩
      rintro _ ⟨⟩
      obtain ⟨reg', hshows, hfollows⟩ := h.staged context rfl
      obtain ⟨events, reg'', hacts, hevents, hshows'⟩ :=
        (h.acted rfl hshows hfollows (Action.isImport_eq_false himport) parent world).acts
      exact ⟨reg'', hshows', hevents ▸ hfollows.concat hacts⟩
  | commit logsEvents listener =>
    cases context? with
    | none => exact ⟨reg, hquiet rfl h.staged, .refl _ _⟩
    | some context =>
      obtain ⟨reg', hshows, hfollows⟩ := h.staged context rfl
      exact ⟨reg', ⟨hsteady, hshows.write, h.follows.trans hfollows, nofun⟩, hfollows⟩
  | drop => exact ⟨reg, hquiet rfl nofun, .refl _ _⟩
  | latestCompatible stack current => exact ⟨reg, hquiet rfl h.staged, .refl _ _⟩
  | invalidate => exact ⟨reg, hquiet rfl h.staged, .refl _ _⟩

/-- Once there are parameters, what is committed later follows by acts. -/
theorem run_of_given (h : Traced imported? journal n reg) (hgiven : reg.params?.isSome = true)
    {actions : List (Action ω)} (himport : ∀ action ∈ actions, action.genesis? = none) :
    ∃ reg', Traced imported? (journal ++ n.journal actions) (n.run actions) reg' ∧
      reg.Acts (n.journal actions) reg' := by
  induction actions generalizing journal n reg with
  | nil => exact ⟨reg, by rwa [Node.journal, List.append_nil], .refl⟩
  | cons action actions ih =>
    obtain ⟨reg₁, h₁, hfollows⟩ := h.step (himport action List.mem_cons_self)
    have hacts := hfollows.acts_of_given hgiven
    obtain ⟨reg', h', hacts'⟩ := ih h₁ (by rw [hacts.params?_eq, hgiven])
      fun other hother => himport other (List.mem_cons_of_mem _ hother)
    rw [Node.journal, ← List.append_assoc]
    exact ⟨reg', h', hacts.trans hacts'⟩

/-- A genesis state may be imported as long as there is nothing. -/
theorem allow (h : Traced none journal n reg) (imported? : Option Genesis) :
    Traced imported? journal n reg := by
  obtain ⟨rfl, rfl⟩ := h.follows.eq_of_none
  refine ⟨h.steady, h.committed, .refl _ _, fun context hcontext => ?_⟩
  obtain ⟨reg', hshows, hfollows⟩ := h.staged context hcontext
  obtain ⟨hnone, rfl⟩ := hfollows.eq_of_none
  exact ⟨_, hshows, hnone ▸ .refl _ _⟩

/-- The first import founds the registry, or there is still nothing. -/
theorem step_import (h : Traced none journal n reg) {action : Action ω} {genesis : Genesis}
    (himport : action.genesis? = some genesis) :
    ∃ reg', Traced (some genesis) (journal ++ n.published action) (n.step action) reg' := by
  have hsteady := h.steady.step action
  have hallowed := h.allow (some genesis)
  obtain ⟨rfl, rfl⟩ := h.follows.eq_of_none
  obtain ⟨store, cache, context?⟩ := n
  cases action with
  | perform parent world request =>
    cases request with
    | importGenesis genesis' =>
      cases himport
      cases context? with
      | none => exact ⟨.empty, hallowed.unpublished hsteady rfl hallowed.staged⟩
      | some context =>
        refine ⟨.empty, hallowed.unpublished hsteady rfl ?_⟩
        rintro _ ⟨⟩
        obtain ⟨reg', hshows, hfollows⟩ := h.staged context rfl
        obtain ⟨hnone, rfl⟩ := hfollows.eq_of_none
        obtain ⟨hevents, hempty | ⟨hcheck, hfounded⟩⟩ :=
          @Controller.perform_import_cases _ _ parent ⟨context, cache, world, []⟩ genesis hshows
        · exact ⟨_, hempty, (hevents.trans hnone).symm ▸ .refl _ _⟩
        · exact ⟨_, hfounded, (hevents.trans hnone).symm ▸ .founded rfl hcheck .refl⟩
    | _ => cases himport
  | _ => cases himport

theorem run (h : Traced imported? journal n reg) {actions : List (Action ω)}
    (honce : (imported?.toList ++ actions.filterMap Action.genesis?).length ≤ 1) :
    ∃ reg', Traced (imported?.toList ++ actions.filterMap Action.genesis?).head?
      (journal ++ n.journal actions) (n.run actions) reg' := by
  induction actions generalizing imported? journal n reg with
  | nil =>
    refine ⟨reg, ?_⟩
    rw [Node.journal, List.append_nil]
    cases imported? <;> exact h
  | cons action actions ih =>
    rw [Node.journal, ← List.append_assoc]
    cases hgenesis? : action.genesis? with
    | none =>
      rw [List.filterMap_cons_none hgenesis?] at honce ⊢
      obtain ⟨reg', h', -⟩ := h.step hgenesis?
      exact ih h' honce
    | some genesis =>
      rw [List.filterMap_cons_some hgenesis?] at honce ⊢
      cases imported? with
      | some genesis' => simp at honce
      | none =>
        obtain ⟨reg', h'⟩ := h.step_import hgenesis?
        exact ih h' (by simpa using honce)

end Traced

/-- **Every run without a second import is traced by its journal.** -/
theorem exists_traced_run {actions : List (Action ω)}
    (honce : (actions.filterMap Action.genesis?).length ≤ 1) :
    ∃ reg, Traced (actions.filterMap Action.genesis?).head? (start.journal actions)
      (start.run actions) reg :=
  Traced.start.run honce

/-- **Once the one genesis state of a run has been committed**, it has passed its check, and the
journal tells the acts from its registry on. -/
theorem exists_traced_run_of_founded {actions : List (Action ω)} {genesis : Genesis}
    (honce : actions.filterMap Action.genesis? = [genesis])
    (hfounded : (start.run actions).Founded) :
    ∃ reg, Traced (some genesis) (start.journal actions) (start.run actions) reg ∧
      genesis.check = .ok () ∧ genesis.registry.Acts (start.journal actions) reg := by
  obtain ⟨reg, htraced⟩ := @exists_traced_run _ actions (by simp [honce])
  rw [honce] at htraced
  obtain ⟨⟨_, himported, hcheck, hacts⟩, -⟩ := htraced.of_founded hfounded
  cases himported
  exact ⟨reg, htraced, hcheck, hacts⟩

end Node

end Chainlets
