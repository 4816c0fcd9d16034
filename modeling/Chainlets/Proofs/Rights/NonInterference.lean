import Chainlets.Proofs.Execution.Calls
import Chainlets.Proofs.Rights.Refusal

/-!
# Messages without the right do not interfere

A *linked host* is a host together with its parent chain. It opens any number of contexts over one
store and one controller, in each of them any number of atomic sections within one another, and
commits the contexts in any order. Between its actions the parent chain may do as it likes. The
events that were published and the calls of the parent chain that could have changed it are kept.

Whether the sender of a message has the right to it depends on what came before, so this is judged
in the course of a run. The run without the messages that overstep is then the same run, seen
without them: whatever else is done is done in the same states, and comes to the same.

## Main definitions

* `LinkedHost`, with `LinkedHost.Action`, `LinkedHost.step` and `LinkedHost.run`.
* `LinkedHost.Moment` — an action in the course of a run, and the host that comes upon it.
* `LinkedHost.history` — the moments of a run.
* `LinkedHost.rightful` — the actions of a run without the messages that overstep.

## Main results

* `LinkedHost.step_of_oversteps` — a message that oversteps leaves the host as it is.
* `LinkedHost.oversteps_without_trace` — **messages that overstep fail, and a run ends as it would
  without them.**
-/

namespace Chainlets

/-- A parent chain on record gives the same rights. -/
theorem Message.oversteps_recorded {ω : Type} {parent : Parent ω} {world : ω} {calls : List Call}
    {o : Overlay} {msg : Message} :
    msg.Oversteps parent.recorded (world, calls) o ↔ msg.Oversteps parent world o := by
  cases msg <;> exact Iff.rfl

/-! ### The host -/

/-- A context that is open, with its atomic sections. -/
structure Sectioned where
  context : Context
  /-- The contexts in which its open sections began, the innermost first. -/
  checkpoints : List Context

/-- A host with any number of open contexts, and its parent chain. -/
structure LinkedHost (ω : Type) where
  /-- The committed state. -/
  store : Store
  /-- The cache of the controller. -/
  cache : TreeCache
  /-- The contexts that are open, by name. -/
  contexts : OrderedMap String Sectioned
  /-- The events of the contexts that were committed, in order. -/
  published : List Event
  /-- The state of the parent chain. -/
  world : ω
  /-- The calls that may have changed the parent chain, in order. -/
  calls : List Call

namespace LinkedHost

/-- What is done by a host, or by its parent chain. -/
inductive Action (ω : Type) where
  /-- Open a context. One that is open under the same name is dropped. -/
  | openContext (name : String) (height : Height) (time : Time)
  /-- Do what is asked for in an open context. -/
  | perform (name : String) (request : Request)
  /-- Begin an atomic section in an open context. -/
  | beginSection (name : String)
  /-- End the innermost section of an open context, and undo it if it failed. -/
  | endSection (name : String) (succeeds : Bool)
  /-- Commit an open context, write its updates and publish its events. -/
  | commit (name : String) (logsEvents : Bool) (listener : Controller.Listener)
  /-- Drop an open context. -/
  | drop (name : String)
  /-- Ask the controller for the newest compatible version. -/
  | latestCompatible (stack current : String)
  /-- Drop the tree of the cache. -/
  | invalidate
  /-- The parent chain does something on its own. -/
  | proceed (change : ω → ω)

variable {ω : Type}

/-- What a request comes to in an open context, and what it leaves. -/
def performIn (parent : Parent ω) (h : LinkedHost ω) (context : Context) (request : Request) :
    Except Failure Response × Live (ω × List Call) :=
  Controller.perform h.store parent.recorded request ⟨context, h.cache, (h.world, h.calls), []⟩

/-- Do one action. One that needs an open context, or a section, does nothing without it. -/
def step (parent : Parent ω) (h : LinkedHost ω) : Action ω → LinkedHost ω
  | .openContext name height time =>
    { h with contexts := h.contexts.insert name ⟨.fresh height time, []⟩ }
  | .perform name request =>
    match h.contexts.get? name with
    | none => h
    | some ⟨context, checkpoints⟩ =>
      let (_, live) := h.performIn parent context request
      { h with
        cache := live.cache
        contexts := h.contexts.insert name ⟨live.context, checkpoints⟩
        world := live.world.1
        calls := live.world.2 }
  | .beginSection name =>
    match h.contexts.get? name with
    | none => h
    | some ⟨context, checkpoints⟩ =>
      { h with contexts := h.contexts.insert name ⟨context, context :: checkpoints⟩ }
  | .endSection name succeeds =>
    match h.contexts.get? name with
    | some ⟨context, checkpoint :: checkpoints⟩ =>
      let after := if succeeds then context else checkpoint.rollback context
      { h with contexts := h.contexts.insert name ⟨after, checkpoints⟩ }
    | _ => h
  | .commit name logsEvents listener =>
    match h.contexts.get? name with
    | none => h
    | some ⟨context, _⟩ =>
      let committed := Controller.commit logsEvents listener context h.cache
      { h with
        store := h.store.write committed.updates
        cache := committed.cache
        contexts := h.contexts.erase name
        published := h.published ++ committed.published }
  | .drop name => { h with contexts := h.contexts.erase name }
  | .latestCompatible stack current =>
    let (_, cache, _) := Controller.latestCompatible h.store stack current h.cache
    { h with cache }
  | .invalidate => { h with cache := h.cache.invalidate }
  | .proceed change => { h with world := change h.world }

/-- Do actions one after the other. -/
def run (parent : Parent ω) (h : LinkedHost ω) (actions : List (Action ω)) : LinkedHost ω :=
  actions.foldl (step parent) h

/-! ### The course of a run -/

/-- An action in the course of a run, and the host that comes upon it. -/
structure Moment (ω : Type) where
  host : LinkedHost ω
  action : Action ω

namespace Moment

/-- What a request comes to that is made in an open context. -/
def answer? (parent : Parent ω) (moment : Moment ω) : Option (Except Failure Response) :=
  match moment.action with
  | .perform name request =>
    (moment.host.contexts.get? name).map fun c =>
      (moment.host.performIn parent c.context request).1
  | _ => none

/-- A message is to be handled in an open context, and its sender lacks the right to it there. -/
def Oversteps (parent : Parent ω) (moment : Moment ω) : Prop :=
  match moment.action with
  | .perform name (.handle msg) => ∃ c ∈ moment.host.contexts.get? name,
      msg.Oversteps parent moment.host.world ⟨moment.host.store, c.context.updates⟩
  | _ => False

instance (parent : Parent ω) (moment : Moment ω) : Decidable (moment.Oversteps parent) := by
  unfold Oversteps
  split <;> infer_instance

end Moment

/-- The moments of a run. -/
def history (parent : Parent ω) (h : LinkedHost ω) : List (Action ω) → List (Moment ω)
  | [] => []
  | action :: actions => ⟨h, action⟩ :: history parent (h.step parent action) actions

/-- The moments of a run that are no messages that overstep. -/
def rightfulHistory (parent : Parent ω) (h : LinkedHost ω) (actions : List (Action ω)) :
    List (Moment ω) :=
  (h.history parent actions).filter fun moment => ¬ moment.Oversteps parent

/-- The actions of a run without the messages that overstep. -/
def rightful (parent : Parent ω) (h : LinkedHost ω) (actions : List (Action ω)) :
    List (Action ω) :=
  (h.rightfulHistory parent actions).map (·.action)

/-! ### Messages that overstep -/

variable {parent : Parent ω} {h : LinkedHost ω} {action : Action ω} {actions : List (Action ω)}

/-- A message that oversteps fails, and leaves what it was handled with. -/
theorem performIn_of_oversteps {context : Context} {msg : Message}
    (hover : msg.Oversteps parent h.world ⟨h.store, context.updates⟩) :
    ∃ failure log, h.performIn parent context (.handle msg) =
      (.error failure, ⟨context, h.cache, (h.world, h.calls), log⟩) :=
  Controller.perform_of_oversteps (Message.oversteps_recorded.2 hover)

theorem Moment.exists_of_oversteps (hover : Moment.Oversteps parent ⟨h, action⟩) :
    ∃ name msg c, action = .perform name (.handle msg) ∧ h.contexts.get? name = some c ∧
      msg.Oversteps parent h.world ⟨h.store, c.context.updates⟩ := by
  cases action with
  | perform name request =>
    cases request with
    | handle msg =>
      obtain ⟨c, hget, hover⟩ := hover
      exact ⟨name, msg, c, rfl, Option.mem_def.1 hget, hover⟩
    | _ => exact False.elim hover
  | _ => exact False.elim hover

theorem Moment.answer?_of_oversteps (hover : Moment.Oversteps parent ⟨h, action⟩) :
    ∃ failure, Moment.answer? parent ⟨h, action⟩ = some (.error failure) := by
  obtain ⟨name, msg, c, rfl, hget, hover⟩ := exists_of_oversteps hover
  obtain ⟨failure, log, hperform⟩ := performIn_of_oversteps hover
  refine ⟨failure, ?_⟩
  rw [answer?]
  dsimp only
  rw [hget, Option.map_some, hperform]

/-- A message that oversteps leaves the host as it is. -/
theorem step_of_oversteps (hover : Moment.Oversteps parent ⟨h, action⟩) :
    h.step parent action = h := by
  obtain ⟨name, msg, c, rfl, hget, hover⟩ := Moment.exists_of_oversteps hover
  obtain ⟨failure, log, hperform⟩ := performIn_of_oversteps hover
  rw [step, hget]
  dsimp only
  rw [hperform, OrderedMap.insert_of_get? hget]

/-! ### Runs without them -/

theorem rightfulHistory_cons_of_oversteps (hover : Moment.Oversteps parent ⟨h, action⟩) :
    h.rightfulHistory parent (action :: actions) = h.rightfulHistory parent actions := by
  rw [rightfulHistory, history, List.filter_cons_of_neg (by simpa using hover),
    step_of_oversteps hover, rightfulHistory]

theorem rightfulHistory_cons (hright : ¬ Moment.Oversteps parent ⟨h, action⟩) :
    h.rightfulHistory parent (action :: actions) =
      ⟨h, action⟩ :: (h.step parent action).rightfulHistory parent actions := by
  rw [rightfulHistory, history, List.filter_cons_of_pos (by simpa using hright), rightfulHistory]

/-- The run without the messages that overstep goes through the other moments of the run. -/
theorem history_rightful (parent : Parent ω) (h : LinkedHost ω) (actions : List (Action ω)) :
    h.history parent (h.rightful parent actions) = h.rightfulHistory parent actions := by
  induction actions generalizing h with
  | nil => rfl
  | cons action actions ih =>
    by_cases hover : Moment.Oversteps parent ⟨h, action⟩
    · rw [rightful, rightfulHistory_cons_of_oversteps hover]
      exact ih h
    · rw [rightful, rightfulHistory_cons hover, List.map_cons, history]
      exact congrArg _ (ih (h.step parent action))

/-- The run without the messages that overstep ends as the run does. -/
theorem run_rightful (parent : Parent ω) (h : LinkedHost ω) (actions : List (Action ω)) :
    h.run parent (h.rightful parent actions) = h.run parent actions := by
  induction actions generalizing h with
  | nil => rfl
  | cons action actions ih =>
    by_cases hover : Moment.Oversteps parent ⟨h, action⟩
    · have hstep : h.run parent (action :: actions) = h.run parent actions :=
        congrArg (run parent · actions) (step_of_oversteps hover)
      rw [rightful, rightfulHistory_cons_of_oversteps hover, hstep]
      exact ih h
    · rw [rightful, rightfulHistory_cons hover, List.map_cons]
      exact ih (h.step parent action)

/-- **Messages whose senders lack the right to them do not interfere.** Each of them fails. The run
without them ends with the same state in all: the store, the cache, the open contexts with their
trees, the published events, and the parent chain with the calls that it got. And what else is done
in the run is done in the same states without them. -/
theorem oversteps_without_trace (parent : Parent ω) (h : LinkedHost ω)
    (actions : List (Action ω)) :
    (∀ moment ∈ h.history parent actions, moment.Oversteps parent →
      ∃ failure, moment.answer? parent = some (.error failure)) ∧
    h.run parent (h.rightful parent actions) = h.run parent actions ∧
    h.history parent (h.rightful parent actions) = h.rightfulHistory parent actions :=
  ⟨fun _ _ hover => Moment.answer?_of_oversteps hover, run_rightful parent h actions,
    history_rightful parent h actions⟩

end LinkedHost

end Chainlets
