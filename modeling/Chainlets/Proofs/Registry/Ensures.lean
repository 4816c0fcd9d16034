import Chainlets.Proofs.Coherence.Effect
import Chainlets.Proofs.Registry.Basic

/-!
# What executions do to the registry

An execution that runs over a state that shows a registry and succeeds leaves a state that shows one
again. What is said of an execution is a relation between its result and that second registry, and
such facts follow the binds of a program: what the first part ensures is what the second part starts
from. Most parts of a program only read. Of these only the results matter, so they have rules of
their own, in which the registry is not mentioned again.

A run that fails is not spoken of here: the context is rolled back then, and the registry that it
shows is the one before.

## Main definitions

* `Frame.unwritten` — the buffered writes do not change.
* `Execution.Ensures` — what holds of the result and the registry after a success.
* `Execution.Reads`, `Execution.Writes` — the registry is the same, or a given one.

## Main results

* `Execution.Ensures.bind`, `Execution.Ensures.atomic`, … — programs.
* `Execution.reads_chainlet`, `Execution.writes_putChainlet`, … — reads and writes.
-/

namespace Chainlets

/-- The buffered writes do not change. -/
def Frame.unwritten {ω : Type} : Frame ω :=
  ⟨fun _ m m' => m'.context.updates = m.context.updates, fun _ _ => rfl, fun h h' => h'.trans h⟩

namespace Execution

variable {ω α β : Type} {reg reg' : Registry}

/-! ### Parts that write nothing -/

theorem unwritten_of_noting {x : Execution ω α} (h : Keeps Frame.noting x) :
    Keeps Frame.unwritten x :=
  h.mono fun {_ m m'} hnoting => by
    have heq : m'.context = { m.context with events := m'.context.events } := hnoting
    change m'.context.updates = m.context.updates
    rw [heq]

theorem unwritten_of_outside {x : Execution ω α} (h : Keeps Frame.outside x) :
    Keeps Frame.unwritten x :=
  unwritten_of_noting (noting_of_outside h)

theorem unwritten_emit (event : Event) : Keeps Frame.unwritten (emit event : Execution ω Unit) :=
  unwritten_of_noting (noting_emit event)

theorem unwritten_discardTree : Keeps Frame.unwritten (discardTree : Execution ω Unit) :=
  fun _ _ => rfl

theorem unwritten_tree : Keeps Frame.unwritten (tree : Execution ω VersionTree) := by
  have hload : Keeps Frame.unwritten (loadTree : Execution ω Unit) := fun s m => by
    rw [run, loadTree]
    split
    · exact Frame.unwritten.refl s m
    · split <;> exact Frame.unwritten.refl s m
  exact hload.bind fun _ => still_context.of_still.bind fun _ => Keeps.pure _

theorem unwritten_changeTree (f : VersionTree → Except VersionError VersionTree) :
    Keeps Frame.unwritten (changeTree f : Execution ω Unit) := by
  refine unwritten_tree.bind fun t => ?_
  have hmodify (g : StagedTree → StagedTree) : Keeps Frame.unwritten
      (modifyContext fun c => { c with tree := g c.tree } : Execution ω Unit) := fun _ _ => rfl
  refine (hmodify StagedTree.handOut).bind fun _ => ?_
  exact (still_liftVersion _).of_still.bind fun t' => hmodify fun c => { c with tree? := some t' }

/-! ### Ensuring -/

/-- What holds of the result and the registry when an execution over a registry succeeds. -/
def Ensures (x : Execution ω α) (reg : Registry) (Q : α → Registry → Prop) : Prop :=
  ∀ s m a m', reg.ShownBy (Overlay.mk s.store m.context.updates) → x.run s m = (.ok a, m') →
    ∃ reg', reg'.ShownBy (Overlay.mk s.store m'.context.updates) ∧ Q a reg'

/-- The registry is the same, and something holds of the result. -/
def Reads (x : Execution ω α) (reg : Registry) (φ : α → Prop) : Prop :=
  x.Ensures reg fun a reg' => φ a ∧ reg' = reg

/-- The registry becomes a given one. -/
def Writes (x : Execution ω α) (reg reg' : Registry) : Prop := x.Ensures reg fun _ r => r = reg'

namespace Ensures

variable {P Q : α → Registry → Prop} {R : β → Registry → Prop}

theorem mono {x : Execution ω α} (h : x.Ensures reg P) (himp : ∀ a reg', P a reg' → Q a reg') :
    x.Ensures reg Q := fun s m a m' hshows hrun => by
  obtain ⟨reg', hshows', hP⟩ := h s m a m' hshows hrun
  exact ⟨reg', hshows', himp a reg' hP⟩

theorem pure {a : α} (h : Q a reg) : (Pure.pure a : Execution ω α).Ensures reg Q := by
  rintro s m _ _ hshows ⟨⟩
  exact ⟨reg, hshows, h⟩

theorem fail (failure : Failure) : (Execution.fail failure : Execution ω α).Ensures reg Q := by
  rintro s m _ _ hshows ⟨⟩

theorem bind {x : Execution ω α} {f : α → Execution ω β} (hx : x.Ensures reg P)
    (hf : ∀ a reg', P a reg' → (f a).Ensures reg' R) : (x >>= f).Ensures reg R := by
  intro s m b m' hshows hrun
  obtain ⟨a, m₁, hrun₁, hrun₂⟩ := bind_eq_ok.1 hrun
  obtain ⟨reg₁, hshows₁, hP⟩ := hx s m a m₁ hshows hrun₁
  exact hf a reg₁ hP s m₁ b m' hshows₁ hrun₂

theorem map {x : Execution ω α} (h : x.Ensures reg P) {f : α → β}
    (himp : ∀ a reg', P a reg' → R (f a) reg') : (f <$> x).Ensures reg R := by
  rw [map_eq_pure_bind]
  exact h.bind fun a reg' hP => pure (himp a reg' hP)

theorem ite {c : Prop} [Decidable c] {x y : Execution ω α} (hx : c → x.Ensures reg Q)
    (hy : ¬ c → y.Ensures reg Q) : (if c then x else y).Ensures reg Q := by
  split
  next hc => exact hx hc
  next hc => exact hy hc

/-- What comes after a check is only reached if the check is passed. -/
theorem guarded {c : Prop} [Decidable c] {failure : Failure} {f : α → Execution ω β}
    {x : Execution ω β} (hx : ¬ c → x.Ensures reg R) :
    (if c then Execution.fail failure >>= f else x).Ensures reg R :=
  ite (fun _ => fail failure) hx

/-- A part that succeeds within a frame that leaves the writes alone. -/
theorem of_unwritten {x : Execution ω α} (h : Keeps Frame.unwritten x) (hQ : ∀ a, Q a reg) :
    x.Ensures reg Q := by
  intro s m a m' hshows hrun
  have hupdates : m'.context.updates = m.context.updates := h.rel hrun
  exact ⟨reg, by rw [hupdates]; exact hshows, hQ a⟩

/-- A part whose failure is handed on as a value leaves the registry as it was if it fails, since
its writes are undone. -/
theorem atomic {x : Execution ω α} (h : x.Ensures reg Q) :
    x.atomic.outcome.Ensures reg fun result reg' =>
      match result with
      | .ok a => Q a reg'
      | .error _ => reg' = reg := by
  intro s m result m' hshows hrun
  cases hx : x.run s m with
  | mk result' m₁ =>
    have hatomic : x.atomic.outcome.run s m =
        (.ok (x.atomic.run s m).1, (x.atomic.run s m).2) := rfl
    rw [hatomic] at hrun
    cases result' with
    | ok a =>
      rw [run_atomic_of_ok hx] at hrun
      cases hrun
      exact h s m a m₁ hshows hx
    | error failure =>
      rw [run_atomic_of_error hx] at hrun
      cases hrun
      exact ⟨reg, hshows, rfl⟩

end Ensures

/-- What holds of the result of a part that only reads can be used in the rest. -/
theorem Reads.bind {x : Execution ω α} {f : α → Execution ω β} {φ : α → Prop}
    {R : β → Registry → Prop} (hx : x.Reads reg φ) (hf : ∀ a, φ a → (f a).Ensures reg R) :
    (x >>= f).Ensures reg R :=
  Ensures.bind hx fun a _ ⟨ha, heq⟩ => heq ▸ hf a ha

theorem Reads.pure {φ : α → Prop} {a : α} (h : φ a) : (Pure.pure a : Execution ω α).Reads reg φ :=
  Ensures.pure ⟨h, rfl⟩

theorem Writes.bind {x : Execution ω α} {f : α → Execution ω β} {R : β → Registry → Prop}
    (hx : x.Writes reg reg') (hf : ∀ a, (f a).Ensures reg' R) : (x >>= f).Ensures reg R :=
  Ensures.bind hx fun a _ heq => heq ▸ hf a

/-- A part that writes nothing, of whose result nothing has to be known. -/
theorem Keeps.reads {x : Execution ω α} (h : Keeps Frame.unwritten x) (reg : Registry) :
    x.Reads reg fun _ => True :=
  .of_unwritten h fun _ => ⟨trivial, rfl⟩

theorem Keeps.reads_of_still {x : Execution ω α} (h : Keeps Frame.still x) (reg : Registry) :
    x.Reads reg fun _ => True :=
  Keeps.reads h.of_still reg

theorem Keeps.reads_of_outside {x : Execution ω α} (h : Keeps Frame.outside x) (reg : Registry) :
    x.Reads reg fun _ => True :=
  Keeps.reads (unwritten_of_outside h) reg

/-! ### Reads -/

theorem reads_view : (view : Execution ω Overlay).Reads reg fun o => reg.ShownBy o := by
  rintro s m _ _ hshows ⟨⟩
  exact ⟨reg, hshows, hshows, rfl⟩

theorem reads_ask (question : Parent ω → ω → α) :
    (ask question).Reads reg fun a => ∃ parent world, a = question parent world := by
  rintro s m _ _ hshows ⟨⟩
  exact ⟨reg, hshows, ⟨s.parent, m.world, rfl⟩, rfl⟩

theorem reads_ofExcept (x : Except Failure α) :
    (ofExcept x : Execution ω α).Reads reg fun a => x = .ok a := by
  rintro s m a _ hshows ⟨⟩
  exact ⟨reg, hshows, rfl, rfl⟩

theorem reads_liftStorage (x : Except StorageFault α) :
    (liftM x : Execution ω α).Reads reg fun a => x = .ok a :=
  (reads_ofExcept (x.mapError .storage)).mono fun _ _ ⟨hx, heq⟩ => ⟨Except.mapError_eq_ok.1 hx, heq⟩

theorem reads_liftVersion (x : Except VersionError α) :
    (liftM x : Execution ω α).Reads reg fun a => x = .ok a :=
  (reads_ofExcept (x.mapError .badVersion)).mono fun _ _ ⟨hx, heq⟩ =>
    ⟨Except.mapError_eq_ok.1 hx, heq⟩

theorem reads_liftFailure (x : Except Failure α) :
    (liftM x : Execution ω α).Reads reg fun a => x = .ok a :=
  reads_ofExcept x

theorem reads_params :
    (params : Execution ω Params).Reads reg fun params => reg.params? = some params := by
  refine reads_view.bind fun o ho => (reads_liftStorage _).mono fun params _ ⟨hparams, heq⟩ => ?_
  rw [Readable.params, ho.params] at hparams
  cases hparams? : reg.params? with
  | none => rw [hparams?] at hparams; cases hparams
  | some params' => rw [hparams?] at hparams; cases hparams; exact ⟨rfl, heq⟩

theorem reads_stack? (name : String) :
    (stack? name : Execution ω _).Reads reg fun stack? => stack? = reg.catalog.get? name := by
  intro s m stack? m' hshows hrun
  obtain ⟨rfl, hstack?⟩ := Operation.stack?_of_shows hshows.catalog hrun
  exact ⟨reg, hshows, hstack?, rfl⟩

theorem reads_stack (name : String) :
    (stack name : Execution ω Stack).Reads reg fun stack =>
      reg.catalog.get? name = some stack := by
  intro s m stack m' hshows hrun
  obtain ⟨rfl, hstack⟩ := Operation.stack_of_shows hshows.catalog hrun
  exact ⟨reg, hshows, hstack, rfl⟩

theorem reads_chainlet? (chainId : String) :
    (chainlet? chainId : Execution ω _).Reads reg fun chainlet? =>
      chainlet? = reg.chainlets.get? chainId := by
  refine reads_view.bind fun o ho => (reads_liftStorage _).mono fun c? _ ⟨hc?, heq⟩ => ?_
  exact ⟨Except.ok.inj (hc?.symm.trans (ho.chainlet?_eq chainId)), heq⟩

theorem reads_chainlet (chainId : String) :
    (chainlet chainId : Execution ω Chainlet).Reads reg fun c =>
      reg.chainlets.get? chainId = some c := by
  refine (reads_chainlet? chainId).bind fun c? hc? => ?_
  cases c? with
  | none => exact .fail _
  | some c => exact Reads.pure hc?.symm

theorem reads_enabledVersion (name : String) (stack : Stack) (version : String) :
    (enabledVersion name stack version : Execution ω StackVersion).Reads reg fun v =>
      stack.enabled? version = some v := by
  rw [enabledVersion]
  cases stack.enabled? version with
  | none => exact .fail _
  | some v => exact Reads.pure rfl

/-! ### Writes -/

/-- A write of one place, when the updates show what is wanted once the value is at the place. -/
theorem writes_put {α : Type} [Stored.Format α] {entry : Entry} {a : α}
    (h : Stored.fits a = true → ∀ {s : Store} {u : Updates}, reg.ShownBy (Overlay.mk s u) →
      reg'.ShownBy (Overlay.mk s (u.insert entry.key (Stored.encode a)))) :
    (put entry a : Execution ω Unit).Writes reg reg' := by
  intro s m _ m' hshows hrun
  rw [put] at hrun
  split at hrun
  next hfits => cases hrun; exact ⟨reg', h hfits hshows, rfl⟩
  next => cases hrun

theorem writes_putStack (stack : Stack) :
    (putStack stack : Execution ω Unit).Writes reg (reg.putStack stack) :=
  writes_put fun hfits _ _ hshows => hshows.putStack hfits

theorem writes_putChainlet (c : Chainlet) :
    (putChainlet c : Execution ω Unit).Writes reg (reg.putChainlet c) :=
  writes_put fun hfits _ _ hshows => hshows.putChainlet hfits

theorem writes_putPendingInit (chainId : String) (consumer : ConsumerId) :
    (putPendingInit chainId consumer : Execution ω Unit).Writes reg (reg.await chainId consumer) :=
  writes_put fun hfits _ _ hshows => hshows.await chainId hfits

theorem writes_putChainletCount (count : UInt64) :
    (putChainletCount count : Execution ω Unit).Writes reg (reg.withCount count) :=
  writes_put fun _ _ _ hshows => hshows.withCount count

theorem writes_putParams (params : Params) :
    (putParams params : Execution ω Unit).Writes reg (reg.withParams params) :=
  writes_put fun _ _ _ hshows => hshows.withParams params

theorem writes_dropPendingInit (chainId : String) :
    (drop (.pendingInit chainId) : Execution ω Unit).Writes reg (reg.init chainId) := by
  rintro s m _ _ hshows ⟨⟩
  exact ⟨reg.init chainId, hshows.init chainId, rfl⟩

/-- Writes of a list, one after the other. -/
theorem writes_forM {f : β → Execution ω Unit} {g : Registry → β → Registry}
    (h : ∀ reg b, (f b).Writes reg (g reg b)) (l : List β) (reg : Registry) :
    (l.forM f).Writes reg (l.foldl g reg) := by
  induction l generalizing reg with
  | nil => exact Ensures.pure rfl
  | cons b l ih => exact (h reg b).bind fun _ => ih (g reg b)

end Execution

end Chainlets
