import Chainlets.Proofs.Coherence.Effect
import Chainlets.Proofs.Execution.Failing

/-!
# Messages without the right

Three rights are asked for: to manage stacks while these are protected, to upgrade a chainlet, and
to launch what only admins may launch. Every message is checked for the right that it takes before
anything else is done, so one without it has read at most the parameters and a chainlet when it is
refused. Such a refusal is no failure of integrity, so nothing is dropped either: the message is
gone, but for what was logged.

## Main definitions

* `Message.Oversteps` — the sender of a message lacks the right to what it asks for.
* `Execution.Refuses` — an execution fails, and has changed nothing.

## Main results

* `Operation.refuses_of_oversteps` — what an overstepping message asks for is refused.
* `Controller.perform_of_oversteps` — **an overstepping message changes nothing but the log.**
-/

namespace Chainlets

open Execution

variable {ω α β : Type}

/-! ### Rights -/

/-- The stacks are protected, and an address may not manage them and is no admin. -/
def BarredFromStacks (parent : Parent ω) (world : ω) (o : Overlay) (address : String) : Prop :=
  (∃ params, Readable.params o = .ok params ∧ params.stackProtections = true) ∧
    parent.mayManageStacks address world = false ∧ parent.isAdmin address world = false

/-- A chainlet is on record, and an address is none of its maintainers. -/
def StrangeTo (o : Overlay) (chainId address : String) : Prop :=
  ∃ c, Readable.chainlet? o chainId = .ok (some c) ∧ address ∉ c.maintainers

/-- Only admins may launch a service chainlet, or one whose chain id is not in the self-service
format. -/
def Launch.ForAdmins (msg : Launch) : Prop :=
  msg.isService = true ∨ ChainId.isSelfService msg.chainId = false

/-- The sender of a message lacks the right to what it asks for, as a reader and the parent chain
have it. -/
def Message.Oversteps (parent : Parent ω) (world : ω) (o : Overlay) : Message → Prop
  | .createStack msg => BarredFromStacks parent world o msg.creator
  | .addVersion msg => BarredFromStacks parent world o msg.creator
  | .disableVersion msg => BarredFromStacks parent world o msg.creator
  | .launch msg => msg.ForAdmins ∧ parent.isAdmin msg.creator world = false
  | .requestUpgrade msg => StrangeTo o msg.chainId msg.creator
  | .cancelUpgrade msg => StrangeTo o msg.chainId msg.creator

instance (parent : Parent ω) (world : ω) (o : Overlay) (address : String) :
    Decidable (BarredFromStacks parent world o address) := inferInstanceAs (Decidable (_ ∧ _ ∧ _))

theorem strangeTo_iff {o : Overlay} {chainId address : String} : StrangeTo o chainId address ↔
    ∃ c?, Readable.chainlet? o chainId = .ok c? ∧ ∃ c ∈ c?, address ∉ c.maintainers := by
  constructor
  · rintro ⟨c, hread, h⟩
    exact ⟨some c, hread, c, rfl, h⟩
  · rintro ⟨_, hread, c, hc, h⟩
    cases Option.mem_def.1 hc
    exact ⟨c, hread, h⟩

instance (o : Overlay) (chainId address : String) : Decidable (StrangeTo o chainId address) :=
  decidable_of_iff _ strangeTo_iff.symm

instance (msg : Launch) : Decidable msg.ForAdmins := inferInstanceAs (Decidable (_ ∨ _))

instance (parent : Parent ω) (world : ω) (o : Overlay) :
    (msg : Message) → Decidable (msg.Oversteps parent world o)
  | .createStack msg => inferInstanceAs (Decidable (BarredFromStacks parent world o msg.creator))
  | .addVersion msg => inferInstanceAs (Decidable (BarredFromStacks parent world o msg.creator))
  | .disableVersion msg => inferInstanceAs (Decidable (BarredFromStacks parent world o msg.creator))
  | .launch msg => inferInstanceAs (Decidable (msg.ForAdmins ∧ _))
  | .requestUpgrade msg => inferInstanceAs (Decidable (StrangeTo o msg.chainId msg.creator))
  | .cancelUpgrade msg => inferInstanceAs (Decidable (StrangeTo o msg.chainId msg.creator))

/-! ### Refusals -/

/-- An execution fails, has changed nothing, and the host need not stop. -/
def Execution.Refuses (x : Execution ω α) (s : Surroundings ω) (m : Machine ω) : Prop :=
  ∃ failure, x.run s m = (.error failure, m) ∧ failure.isFatal = false

variable {s : Surroundings ω} {m : Machine ω}

namespace Execution.Refuses

theorem fail {failure : Failure} (h : failure.isFatal = false) :
    (Execution.fail failure : Execution ω α).Refuses s m := ⟨failure, rfl, h⟩

/-- What comes after a refusal is not done. -/
theorem bind {x : Execution ω α} (h : x.Refuses s m) (f : α → Execution ω β) :
    (x >>= f).Refuses s m := by
  obtain ⟨failure, hrun, hfatal⟩ := h
  exact ⟨failure, run_bind_of_error hrun, hfatal⟩

/-- What is refused after a read that succeeds. -/
theorem of_ok {x : Execution ω α} {a : α} (hx : x.run s m = (.ok a, m)) {f : α → Execution ω β}
    (h : (f a).Refuses s m) : (x >>= f).Refuses s m := by
  obtain ⟨failure, hrun, hfatal⟩ := h
  exact ⟨failure, (run_bind_of_ok hx).trans hrun, hfatal⟩

/-- What is refused whatever the parameters are is refused even if they cannot be read. -/
theorem params_bind {f : Params → Execution ω β} (h : ∀ params, (f params).Refuses s m) :
    (params >>= f).Refuses s m := by
  cases hread : Readable.params (Overlay.mk s.store m.context.updates) with
  | ok params => exact of_ok (params_eq_ok.2 ⟨hread, rfl⟩) (h params)
  | error fault =>
    have hrun : (params : Execution ω Params).run s m = (.error (.storage fault), m) := by
      rw [run_params, hread]
      rfl
    exact bind ⟨_, hrun, rfl⟩ f

end Execution.Refuses

namespace Operation

variable {address : String}

theorem requireStackManager_refuses
    (h : BarredFromStacks s.parent m.world ⟨s.store, m.context.updates⟩ address) :
    (requireStackManager address : Execution ω Unit).Refuses s m := by
  obtain ⟨⟨params, hparams, hprotected⟩, hmanager, hadmin⟩ := h
  refine .of_ok (params_eq_ok.2 ⟨hparams, rfl⟩) (.of_ok (ask_eq_ok.2 ⟨rfl, rfl⟩) ?_)
  rw [hprotected, hmanager, hadmin]
  exact .fail rfl

theorem requireMaintainer_refuses {c : Chainlet} (h : address ∉ c.maintainers) :
    (requireMaintainer c address : Execution ω Unit).Refuses s m := by
  have hstranger : c.isMaintainer address = false := by simpa [Chainlet.isMaintainer] using h
  rw [requireMaintainer, hstranger]
  exact .fail rfl

theorem requireLauncher_refuses {msg : Launch} (h : msg.ForAdmins)
    (hadmin : s.parent.isAdmin msg.creator m.world = false) :
    (requireLauncher msg : Execution ω Unit).Refuses s m := by
  refine .of_ok (ask_eq_ok.2 ⟨rfl, rfl⟩) ?_
  rw [hadmin]
  cases hservice : msg.isService with
  | true => exact .fail rfl
  | false =>
    have hself : ChainId.isSelfService msg.chainId = false :=
      h.resolve_left (by rw [hservice]; exact Bool.false_ne_true)
    rw [hself]
    exact .fail rfl

/-- **What an overstepping message asks for is refused.** -/
theorem refuses_of_oversteps {msg : Message}
    (h : msg.Oversteps s.parent m.world ⟨s.store, m.context.updates⟩) :
    (ofMessage msg : Execution ω Unit).Refuses s m := by
  cases msg with
  | createStack msg => exact (requireStackManager_refuses h).bind _
  | addVersion msg => exact (requireStackManager_refuses h).bind _
  | disableVersion msg => exact (requireStackManager_refuses h).bind _
  | launch msg => exact .params_bind fun _ => (requireLauncher_refuses h.1 h.2).bind _
  | requestUpgrade msg =>
    obtain ⟨c, hc, hstranger⟩ := h
    refine .params_bind fun _ => .of_ok (chainlet_eq_ok.2 ⟨hc, rfl⟩) ?_
    exact (requireMaintainer_refuses hstranger).bind _
  | cancelUpgrade msg =>
    obtain ⟨c, hc, hstranger⟩ := h
    refine .params_bind fun _ => .of_ok (chainlet_eq_ok.2 ⟨hc, rfl⟩) ?_
    exact (requireMaintainer_refuses hstranger).bind _

end Operation

/-! ### Messages of the controller -/

namespace Controller

variable {store : Store} {parent : Parent ω} {live : Live ω}

/-- What is refused leaves nothing but what was logged. -/
theorem execute_of_refuses {x : Execution ω α}
    (h : x.Refuses ⟨store, parent, live.cache⟩ ⟨live.context, live.world, live.log⟩) :
    ∃ failure log, execute store parent x live = (.error failure, { live with log }) := by
  obtain ⟨failure, hrun, hfatal⟩ := h
  refine ⟨failure, live.log ++ [.rolledBack failure], ?_⟩
  -- The context is rolled back to itself, and nothing is dropped from it.
  have hrollback : live.context.rollback live.context = live.context := by
    rw [Context.rollback, if_pos rfl]
  rw [execute, runBare, run_atomic_of_error hrun]
  dsimp only
  rw [hrollback, settle, hfatal]
  rfl

/-- **An overstepping message fails and changes nothing but the log.** It may fail its own check
before it is found to overstep. -/
theorem perform_of_oversteps {msg : Message}
    (h : msg.Oversteps parent live.world ⟨store, live.context.updates⟩) :
    ∃ failure log, perform store parent (.handle msg) live =
      (.error failure, { live with log }) := by
  rcases perform_message store parent msg live with ⟨failure, -, hperform⟩ | ⟨-, hperform⟩
  · exact ⟨failure, live.log, hperform⟩
  · have hrefuses : (Operation.ofMessage msg : Execution ω Unit).Refuses
        ⟨store, parent, live.cache⟩ ⟨live.context, live.world, live.log⟩ :=
      Operation.refuses_of_oversteps h
    obtain ⟨failure, log, hexecute⟩ := execute_of_refuses hrefuses
    refine ⟨failure, log, ?_⟩
    rw [hperform, hexecute]
    rfl

end Controller

end Chainlets
