import Chainlets.Operation.Callbacks
import Chainlets.Proofs.Data.Except
import Chainlets.Proofs.Execution.Frame

/-!
# Executions that fail without a trace

An execution that reads first and writes last leaves nothing behind when it fails: the machine is
the one that it began with. If moreover no failure is one of integrity, then nothing has to be
dropped either, and the operation that runs the execution leaves the context untouched.

The runs of reads that succeed are listed here too; of each, the machine afterwards is known, and
what is known of the result.

## Main definitions

* `Execution.FailsClean` — when it fails nothing has changed, and the host need not stop.

## Main results

* `Execution.FailsClean.bind` — reads before, and then anything that fails clean.
* `Execution.ask_eq_ok`, `Execution.chainlet_eq_ok`, `Execution.ofExcept_eq_ok` — reads that
  succeed.
-/

namespace Chainlets.Execution

variable {ω α β : Type} {s : Surroundings ω} {m m' : Machine ω}

/-! ### Reads that succeed -/

theorem pure_eq_ok {a b : α} :
    (pure a : Execution ω α).run s m = (.ok b, m') ↔ a = b ∧ m = m' := by
  simp

theorem ofExcept_eq_ok {x : Except Failure α} {a : α} :
    (ofExcept x : Execution ω α).run s m = (.ok a, m') ↔ x = .ok a ∧ m = m' := by
  simp

theorem context_eq_ok {c : Context} :
    (context : Execution ω Context).run s m = (.ok c, m') ↔ m.context = c ∧ m = m' := by
  simp

theorem ask_eq_ok {question : Parent ω → ω → α} {a : α} :
    (ask question).run s m = (.ok a, m') ↔ question s.parent m.world = a ∧ m = m' := by
  simp

theorem liftPacket_eq_ok {x : Except BadPacket α} {a : α} :
    (liftM x : Execution ω α).run s m = (.ok a, m') ↔ x = .ok a ∧ m = m' := by
  change (ofExcept (x.mapError .badPacket) : Execution ω α).run s m = _ ↔ _
  rw [ofExcept_eq_ok, Except.mapError_eq_ok]

theorem liftChannel_eq_ok {x : Except ChannelFault α} {a : α} :
    (liftM x : Execution ω α).run s m = (.ok a, m') ↔ x = .ok a ∧ m = m' := by
  change (ofExcept (x.mapError .channel) : Execution ω α).run s m = _ ↔ _
  rw [ofExcept_eq_ok, Except.mapError_eq_ok]

theorem liftStorage_eq_ok {x : Except StorageFault α} {a : α} :
    (liftM x : Execution ω α).run s m = (.ok a, m') ↔ x = .ok a ∧ m = m' := by
  change (ofExcept (x.mapError .storage) : Execution ω α).run s m = _ ↔ _
  rw [ofExcept_eq_ok, Except.mapError_eq_ok]

/-- The parameters are read from what the execution sees. -/
theorem run_params : (params : Execution ω Params).run s m =
    ((Readable.params (Overlay.mk s.store m.context.updates)).mapError .storage, m) := rfl

/-- A stack is read from what the execution sees. -/
theorem run_stack? (name : String) : (stack? name : Execution ω _).run s m =
    ((Readable.stack? (Overlay.mk s.store m.context.updates) name).mapError .storage, m) := rfl

theorem params_eq_ok {params : Params} :
    (Execution.params : Execution ω Params).run s m = (.ok params, m') ↔
      Readable.params (Overlay.mk s.store m.context.updates) = .ok params ∧ m = m' :=
  liftStorage_eq_ok

theorem stack?_eq_ok {name : String} {a? : Option Stack} :
    (stack? name : Execution ω _).run s m = (.ok a?, m') ↔
      Readable.stack? (Overlay.mk s.store m.context.updates) name = .ok a? ∧ m = m' :=
  liftStorage_eq_ok

/-- A stack was read when it is the one that the overlay has under the name. -/
theorem stack_eq_ok {name : String} {a : Stack} :
    (stack name : Execution ω Stack).run s m = (.ok a, m') ↔
      Readable.stack? (Overlay.mk s.store m.context.updates) name = .ok (some a) ∧ m = m' := by
  rw [stack, bind_eq_ok]
  constructor
  · rintro ⟨a?, m₁, hrun, hrest⟩
    obtain ⟨ha?, rfl⟩ := stack?_eq_ok.1 hrun
    cases a? with
    | none => cases hrest
    | some a' =>
      obtain ⟨rfl, rfl⟩ := pure_eq_ok.1 hrest
      exact ⟨ha?, rfl⟩
  · rintro ⟨ha, rfl⟩
    exact ⟨some a, _, stack?_eq_ok.2 ⟨ha, rfl⟩, rfl⟩

theorem chainlet?_eq_ok {chainId : String} {c? : Option Chainlet} :
    (chainlet? chainId : Execution ω _).run s m = (.ok c?, m') ↔
      Readable.chainlet? (Overlay.mk s.store m.context.updates) chainId = .ok c? ∧ m = m' :=
  liftStorage_eq_ok

/-- A chainlet was read when it is the one that the overlay has under the chain id. -/
theorem chainlet_eq_ok {chainId : String} {c : Chainlet} :
    (chainlet chainId : Execution ω Chainlet).run s m = (.ok c, m') ↔
      Readable.chainlet? (Overlay.mk s.store m.context.updates) chainId = .ok (some c) ∧
        m = m' := by
  rw [chainlet, bind_eq_ok]
  constructor
  · rintro ⟨c?, m₁, hrun, hrest⟩
    obtain ⟨hc?, rfl⟩ := chainlet?_eq_ok.1 hrun
    cases c? with
    | none => cases hrest
    | some c' =>
      obtain ⟨rfl, rfl⟩ := pure_eq_ok.1 hrest
      exact ⟨hc?, rfl⟩
  · rintro ⟨hc, rfl⟩
    exact ⟨some c, _, chainlet?_eq_ok.2 ⟨hc, rfl⟩, rfl⟩

/-- A version of a stack was found when it can be launched and upgraded to. -/
theorem enabledVersion_eq_ok {name version : String} {stack : Stack} {v : StackVersion} :
    (enabledVersion name stack version : Execution ω StackVersion).run s m = (.ok v, m') ↔
      stack.enabled? version = some v ∧ m = m' := by
  rw [enabledVersion]
  cases stack.enabled? version with
  | none => simp
  | some w => simp

/-! ### Failing clean -/

/-- Whenever an execution fails, nothing has changed, and the host need not stop. -/
def FailsClean (x : Execution ω α) : Prop :=
  ∀ s m failure m', x.run s m = (.error failure, m') → m' = m ∧ failure.isFatal = false

namespace FailsClean

theorem pure (a : α) : FailsClean (Pure.pure a : Execution ω α) := fun _ _ _ _ h => by cases h

theorem fail {failure : Failure} (h : failure.isFatal = false) :
    FailsClean (Execution.fail failure : Execution ω α) := by
  rintro s m _ _ ⟨⟩
  exact ⟨rfl, h⟩

/-- Parts that change nothing, and after them one that fails clean. -/
theorem bind {x : Execution ω α} {f : α → Execution ω β} (hx : FailsClean x)
    (hstill : Keeps Frame.still x) (hf : ∀ a, FailsClean (f a)) : FailsClean (x >>= f) := by
  intro s m failure m' hrun
  rcases bind_eq_error.1 hrun with hrun | ⟨a, m₁, hrun₁, hrun₂⟩
  · exact hx s m failure m' hrun
  · have hsame : m₁ = m := hstill.rel hrun₁
    rw [hsame] at hrun₂
    exact hf a s m failure m' hrun₂

/-- A part that fails clean, and after it parts that cannot fail. -/
theorem bind_total {x : Execution ω α} {f : α → Execution ω β} (hx : FailsClean x)
    (hf : ∀ a s m failure m', (f a).run s m ≠ (.error failure, m')) : FailsClean (x >>= f) := by
  intro s m failure m' hrun
  rcases bind_eq_error.1 hrun with hrun | ⟨a, m₁, -, hrun⟩
  · exact hx s m failure m' hrun
  · exact absurd hrun (hf a s m₁ failure m')

theorem ofExcept {x : Except Failure α} (h : ∀ failure, x = .error failure →
    failure.isFatal = false) : FailsClean (Execution.ofExcept x : Execution ω α) := by
  rintro s m failure _ hrun
  obtain ⟨hx, rfl⟩ := Prod.mk.inj hrun
  exact ⟨rfl, h failure hx⟩

theorem mapError {ε : Type} {f : ε → Failure} (hf : ∀ e, (f e).isFatal = false)
    (x : Except ε α) : FailsClean (Execution.ofExcept (x.mapError f) : Execution ω α) := by
  refine ofExcept fun failure hx => ?_
  cases x with
  | ok a => cases hx
  | error e => cases hx; exact hf e

theorem liftPacket (x : Except BadPacket α) : FailsClean (liftM x : Execution ω α) :=
  mapError (fun _ => rfl) x

theorem liftChannel (x : Except ChannelFault α) : FailsClean (liftM x : Execution ω α) :=
  mapError (fun _ => rfl) x

theorem ask (question : Parent ω → ω → α) : FailsClean (Execution.ask question) :=
  fun _ _ _ _ h => by cases h

theorem context : FailsClean (Execution.context : Execution ω Context) :=
  fun _ _ _ _ h => by cases h

theorem chainlet (chainId : String) :
    FailsClean (Execution.chainlet chainId : Execution ω Chainlet) := by
  have hview : FailsClean (view : Execution ω Overlay) := fun _ _ _ _ h => by cases h
  have hread : FailsClean (chainlet? chainId : Execution ω _) :=
    hview.bind still_view fun o =>
      mapError (f := .storage) (fun _ => rfl) (Readable.chainlet? o chainId)
  refine hread.bind (still_chainlet? chainId) fun c? => ?_
  cases c? with
  | none => exact fail rfl
  | some c => exact pure c

theorem put {α : Type} [Stored.Format α] (entry : Entry) (a : α) :
    FailsClean (Execution.put entry a : Execution ω Unit) := by
  rw [Execution.put]
  split
  · exact fun _ _ _ _ h => by cases h
  · exact fail rfl

end FailsClean

end Chainlets.Execution
