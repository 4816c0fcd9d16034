import Chainlets.Proofs.Execution.Failing
import Chainlets.Proofs.Registry.Ensures
import Chainlets.Proofs.Registry.Operations

/-!
# What executions do, and how they fail

An execution over a state that shows a registry either succeeds, and then it has left some events
and shows another registry, or it fails for a reason that the host can live with. Both are said
together, since what the first part of a program did is what the second part fails over. Facts
follow the binds of a program, as in `Execution.Ensures`; the events of two parts are those of the
first and then those of the second.

A failure that the host cannot live with is a *corruption*: the version tree disagrees with the
stacks, or a stored value is missing or cannot be read. A state that shows a registry has readable
values only. The one value that has to be there is that of the parameters, so a failure is no
corruption once there are any.

## Main definitions

* `Failure.isCorruption`, `Except.Harmless` — the state itself is broken, or it is not.
* `Frame.silent` — neither the buffered writes nor the events change.
* `Execution.DoesAt`, `Execution.Does` — what a run does, and what every run over a registry does.
* `Execution.Learns`, `Execution.Stores` — nothing is written; the registry becomes a given one.

## Main results

* `Execution.DoesAt.bind`, `Execution.Does.bind`, `Execution.Does.atomic`, … — programs.
* `Execution.learns_chainlet`, `Execution.stores_putChainlet`, … — reads and writes.
-/

namespace Chainlets

/-- The state itself is broken: the version tree disagrees with the stacks, or a stored value is
missing or cannot be read. -/
def Failure.isCorruption : Failure → Bool
  | .treeOutOfSync .. => true
  | .storage (.undecodable ..) => true
  | .storage (.missing _) => true
  | _ => false

/-- If a computation fails, that is no corruption. -/
def Except.Harmless {α : Type} (x : Except Failure α) : Prop :=
  ∀ failure, x = .error failure → failure.isCorruption = false

/-- Neither the buffered writes nor the events change. -/
def Frame.silent {ω : Type} : Frame ω where
  Rel _ m m' :=
    m'.context.updates = m.context.updates ∧ m'.context.events = m.context.events
  refl _ _ := ⟨rfl, rfl⟩
  trans h h' := ⟨h'.1.trans h.1, h'.2.trans h.2⟩

namespace Execution

variable {ω α β : Type} {reg reg' : Registry} {s : Surroundings ω} {m : Machine ω}

theorem silent_of_outside {x : Execution ω α} (h : Keeps Frame.outside x) :
    Keeps Frame.silent x :=
  h.mono fun {_ _ _} heq => ⟨congrArg Context.updates heq, congrArg Context.events heq⟩

theorem silent_tree : Keeps Frame.silent (tree : Execution ω VersionTree) := by
  have hload : Keeps Frame.silent (loadTree : Execution ω Unit) := fun s m => by
    rw [run, loadTree]
    split
    · exact Frame.silent.refl s m
    · split <;> exact Frame.silent.refl s m
  exact hload.bind fun _ => still_context.of_still.bind fun _ => Keeps.pure _

/-! ### Doing -/

/-- What a run does, over a state that shows a registry: if it succeeds, something holds of the
result, the events and the registry afterwards; if it fails, that is no corruption. -/
structure DoesAt (x : Execution ω α) (s : Surroundings ω) (m : Machine ω) (reg : Registry)
    (Q : α → List Event → Registry → Prop) : Prop where
  done : ∀ {a m'}, x.run s m = (.ok a, m') → ∃ events reg',
    m'.context.events = m.context.events ++ events ∧
      reg'.ShownBy (Overlay.mk s.store m'.context.updates) ∧ reg'.params? = reg.params? ∧
      Q a events reg'
  sound : ∀ {failure m'}, x.run s m = (.error failure, m') → reg.params?.isSome = true →
    failure.isCorruption = false

/-- What every run does over a registry. -/
def Does (x : Execution ω α) (reg : Registry) (Q : α → List Event → Registry → Prop) : Prop :=
  ∀ s m, reg.ShownBy (Overlay.mk s.store m.context.updates) → x.DoesAt s m reg Q

/-- Nothing is written and there are no events, and something holds of the result. -/
def Learns (x : Execution ω α) (reg : Registry) (φ : α → Prop) : Prop :=
  x.Does reg fun a events reg' => φ a ∧ events = [] ∧ reg' = reg

/-- The registry becomes a given one, and there are no events. -/
def Stores (x : Execution ω α) (reg reg' : Registry) : Prop :=
  x.Does reg fun _ events r => events = [] ∧ r = reg'

variable {P Q : α → List Event → Registry → Prop} {R : β → List Event → Registry → Prop}

theorem DoesAt.bind {x : Execution ω α} {f : α → Execution ω β} (hx : x.DoesAt s m reg P)
    (hf : ∀ a events reg', P a events reg' →
      (f a).Does reg' fun b more reg'' => R b (events ++ more) reg'') :
    (x >>= f).DoesAt s m reg R := by
  constructor
  · intro b m' hrun
    obtain ⟨a, m₁, hrun₁, hrun₂⟩ := bind_eq_ok.1 hrun
    obtain ⟨events, reg₁, hevents, hshows, hparams, hP⟩ := hx.done hrun₁
    obtain ⟨more, reg₂, hmore, hshows', hparams', hR⟩ :=
      (hf a events reg₁ hP s m₁ hshows).done hrun₂
    refine ⟨events ++ more, reg₂, ?_, hshows', hparams'.trans hparams, hR⟩
    rw [hmore, hevents, List.append_assoc]
  · intro failure m' hrun hgiven
    rcases bind_eq_error.1 hrun with hrun | ⟨a, m₁, hrun₁, hrun₂⟩
    · exact hx.sound hrun hgiven
    · obtain ⟨events, reg₁, -, hshows, hparams, hP⟩ := hx.done hrun₁
      exact (hf a events reg₁ hP s m₁ hshows).sound hrun₂ (by rw [hparams, hgiven])

/-- Parts before that change nothing at all. -/
theorem DoesAt.bind_still {x : Execution ω α} {f : α → Execution ω β} {φ : α → Prop}
    (hx : x.Learns reg φ) (hstill : Keeps Frame.still x)
    (hshows : reg.ShownBy (Overlay.mk s.store m.context.updates))
    (hf : ∀ a, φ a → (f a).DoesAt s m reg R) : (x >>= f).DoesAt s m reg R := by
  constructor
  · intro b m' hrun
    obtain ⟨a, m₁, hrun₁, hrun₂⟩ := bind_eq_ok.1 hrun
    obtain rfl : m₁ = m := hstill.rel hrun₁
    obtain ⟨-, -, -, -, -, ha, -⟩ := (hx s _ hshows).done hrun₁
    exact (hf a ha).done hrun₂
  · intro failure m' hrun hgiven
    rcases bind_eq_error.1 hrun with hrun | ⟨a, m₁, hrun₁, hrun₂⟩
    · exact (hx s m hshows).sound hrun hgiven
    · obtain rfl : m₁ = m := hstill.rel hrun₁
      obtain ⟨-, -, -, -, -, ha, -⟩ := (hx s _ hshows).done hrun₁
      exact (hf a ha).sound hrun₂ hgiven

/-- A part that is silent, with what its run comes to. -/
theorem DoesAt.of_silent {x : Execution ω α} (h : Keeps Frame.silent x)
    (hshows : reg.ShownBy (Overlay.mk s.store m.context.updates))
    (hsound : ∀ {failure m'}, x.run s m = (.error failure, m') → reg.params?.isSome = true →
      failure.isCorruption = false) :
    x.DoesAt s m reg fun a events reg' => (x.run s m).1 = .ok a ∧ events = [] ∧ reg' = reg where
  done {a m'} hrun := by
    obtain ⟨hupdates, hevents⟩ := h.rel hrun
    refine ⟨[], reg, by rw [hevents, List.append_nil], ?_, rfl, by rw [hrun], rfl, rfl⟩
    rwa [hupdates]
  sound := hsound

namespace Does

theorem mono {x : Execution ω α} (h : x.Does reg P)
    (himp : ∀ a events reg', P a events reg' → Q a events reg') : x.Does reg Q := by
  intro s m hshows
  refine ⟨fun hrun => ?_, (h s m hshows).sound⟩
  obtain ⟨events, reg', hevents, hshows', hparams, hP⟩ := (h s m hshows).done hrun
  exact ⟨events, reg', hevents, hshows', hparams, himp _ events reg' hP⟩

theorem pure {a : α} (h : Q a [] reg) : (Pure.pure a : Execution ω α).Does reg Q := by
  intro s m hshows
  refine ⟨?_, fun hrun => by cases hrun⟩
  rintro _ _ ⟨⟩
  exact ⟨[], reg, (List.append_nil _).symm, hshows, rfl, h⟩

theorem fail {failure : Failure} (h : failure.isCorruption = false) :
    (Execution.fail failure : Execution ω α).Does reg Q := by
  intro s m hshows
  refine ⟨fun hrun => (by cases hrun), ?_⟩
  rintro _ _ ⟨⟩ -
  exact h

theorem bind {x : Execution ω α} {f : α → Execution ω β} (hx : x.Does reg P)
    (hf : ∀ a events reg', P a events reg' →
      (f a).Does reg' fun b more reg'' => R b (events ++ more) reg'') :
    (x >>= f).Does reg R := fun s m hshows => (hx s m hshows).bind hf

theorem map {x : Execution ω α} (h : x.Does reg P) {f : α → β}
    (himp : ∀ a events reg', P a events reg' → R (f a) events reg') : (f <$> x).Does reg R := by
  rw [map_eq_pure_bind]
  refine h.bind fun a events reg' hP => pure ?_
  rw [List.append_nil]
  exact himp a events reg' hP

theorem ite {c : Prop} [Decidable c] {x y : Execution ω α} (hx : c → x.Does reg Q)
    (hy : ¬ c → y.Does reg Q) : (if c then x else y).Does reg Q := by
  split
  next hc => exact hx hc
  next hc => exact hy hc

/-- What comes after a check is only reached if the check is passed. -/
theorem guarded {c : Prop} [Decidable c] {failure : Failure} {f : α → Execution ω β}
    {x : Execution ω β} (hfailure : failure.isCorruption = false) (hx : ¬ c → x.Does reg R) :
    (if c then Execution.fail failure >>= f else x).Does reg R :=
  ite (fun _ => fail hfailure) hx

/-- A part whose failure is handed on as a value leaves nothing behind if it fails. -/
theorem atomic {x : Execution ω α} (h : x.Does reg Q) :
    x.atomic.outcome.Does reg fun result events reg' =>
      match result with
      | .ok a => Q a events reg'
      | .error _ => events = [] ∧ reg' = reg := by
  intro s m hshows
  have hatomic : x.atomic.outcome.run s m =
      (.ok (x.atomic.run s m).1, (x.atomic.run s m).2) := rfl
  refine ⟨?_, fun hrun => by rw [hatomic] at hrun; cases hrun⟩
  intro result m' hrun
  rw [hatomic] at hrun
  cases hx : x.run s m with
  | mk result' m₁ =>
    cases result' with
    | ok a =>
      rw [run_atomic_of_ok hx] at hrun
      cases hrun
      exact (h s m hshows).done hx
    | error failure =>
      rw [run_atomic_of_error hx] at hrun
      cases hrun
      exact ⟨[], reg, (List.append_nil _).symm, hshows, rfl, rfl, rfl⟩

/-- An event is left. -/
theorem emit {event : Event} {f : Unit → Execution ω β}
    (hf : (f ()).Does reg fun b more reg' => R b (event :: more) reg') :
    (Execution.emit event >>= f).Does reg R := by
  have hemit : (Execution.emit event : Execution ω Unit).Does reg fun _ events reg' =>
      events = [event] ∧ reg' = reg := by
    intro s m hshows
    refine ⟨?_, fun hrun => by cases hrun⟩
    rintro _ _ ⟨⟩
    exact ⟨[event], reg, rfl, hshows, rfl, rfl, rfl⟩
  refine hemit.bind ?_
  rintro _ _ _ ⟨rfl, rfl⟩
  exact hf

/-- An event is left, and that is all. -/
theorem emit_last {event : Event} {Q : Unit → List Event → Registry → Prop}
    (h : Q () [event] reg) : (Execution.emit event : Execution ω Unit).Does reg Q := by
  rw [← bind_pure (Execution.emit event : Execution ω Unit)]
  exact emit (pure h)

end Does

/-! ### Learning -/

namespace Learns

/-- What holds of the result of a part that writes nothing can be used in the rest. -/
theorem bind {x : Execution ω α} {f : α → Execution ω β} {φ : α → Prop} (hx : x.Learns reg φ)
    (hf : ∀ a, φ a → (f a).Does reg R) : (x >>= f).Does reg R := by
  refine Does.bind hx ?_
  rintro a _ _ ⟨ha, rfl, rfl⟩
  exact hf a ha

theorem pure {φ : α → Prop} {a : α} (h : φ a) : (Pure.pure a : Execution ω α).Learns reg φ :=
  Does.pure ⟨h, rfl, rfl⟩

/-- A silent part, of which it is known what it reads and how it fails. -/
theorem of_reads {x : Execution ω α} {φ : α → Prop} (hsilent : Keeps Frame.silent x)
    (hreads : x.Reads reg φ) (hsound : ∀ {s : Surroundings ω} {m m' : Machine ω} {failure},
      reg.ShownBy (Overlay.mk s.store m.context.updates) → x.run s m = (.error failure, m') →
      reg.params?.isSome = true → failure.isCorruption = false) : x.Learns reg φ := by
  intro s m hshows
  refine ⟨fun {a m'} hrun => ?_, hsound hshows⟩
  obtain ⟨-, hevents⟩ := hsilent.rel hrun
  obtain ⟨_, hshows', ha, rfl⟩ := hreads s m a m' hshows hrun
  exact ⟨[], _, by rw [hevents, List.append_nil], hshows', rfl, ha, rfl, rfl⟩

/-- A part outside of the context, of whose result nothing has to be known. -/
theorem of_outside {x : Execution ω α} (h : Keeps Frame.outside x)
    (hsound : ∀ {s : Surroundings ω} {m m' : Machine ω} {failure},
      x.run s m = (.error failure, m') → failure.isCorruption = false) :
    x.Learns reg fun _ => True :=
  of_reads (silent_of_outside h) (Keeps.reads_of_outside h reg) fun _ hrun _ => hsound hrun

end Learns

theorem learns_view : (view : Execution ω Overlay).Learns reg fun o => reg.ShownBy o :=
  .of_reads still_view.of_still reads_view fun _ hrun => by cases hrun

theorem learns_context : (context : Execution ω Context).Learns reg fun _ => True :=
  .of_outside still_context.of_still fun hrun => by cases hrun

theorem learns_ask (question : Parent ω → ω → α) : (ask question).Learns reg fun _ => True :=
  .of_outside (still_ask question).of_still fun hrun => by cases hrun

theorem learns_log (entry : LogEntry) : (log entry : Execution ω Unit).Learns reg fun _ => True :=
  .of_outside (outside_log entry) fun hrun => by cases hrun

theorem learns_order (command : Parent ω → ω → ω) : (order command).Learns reg fun _ => True :=
  .of_outside (outside_order command) fun hrun => by cases hrun

theorem learns_attempt (command : Parent ω → ω → Called ω α) :
    (attempt command).Learns reg fun _ => True :=
  .of_outside (outside_attempt command) fun hrun => by cases hrun

theorem learns_call (command : Parent ω → ω → Called ω α) :
    (call command).Learns reg fun _ => True := by
  refine (learns_attempt command).bind fun answer _ => ?_
  cases answer with
  | ok a => exact Learns.pure trivial
  | error reason => exact .fail rfl

theorem learns_liftFailure {x : Except Failure α} (hx : Except.Harmless x) :
    (liftM x : Execution ω α).Learns reg fun a => x = .ok a :=
  .of_reads (fun _ _ => ⟨rfl, rfl⟩) (reads_ofExcept x) fun _ hrun _ => hx _ (Prod.mk.inj hrun).1

theorem learns_mapError {ε : Type} {f : ε → Failure} (hf : ∀ e, (f e).isCorruption = false)
    (x : Except ε α) : (ofExcept (x.mapError f) : Execution ω α).Learns reg fun a => x = .ok a := by
  cases x with
  | ok a => exact Learns.pure rfl
  | error e => exact .fail (hf e)

theorem learns_liftVersion (x : Except VersionError α) :
    (liftM x : Execution ω α).Learns reg fun a => x = .ok a := learns_mapError (fun _ => rfl) x

theorem learns_liftChannel (x : Except ChannelFault α) :
    (liftM x : Execution ω α).Learns reg fun a => x = .ok a := learns_mapError (fun _ => rfl) x

theorem learns_liftPacket (x : Except BadPacket α) :
    (liftM x : Execution ω α).Learns reg fun a => x = .ok a := learns_mapError (fun _ => rfl) x

/-- A value that is there to be read. -/
theorem learns_stored {x : Except StorageFault α} {a : α} (hx : x = .ok a) :
    (liftM x : Execution ω α).Learns reg fun b => b = a := by
  subst hx
  exact Learns.pure rfl

theorem learns_params :
    (params : Execution ω Params).Learns reg fun params => reg.params? = some params := by
  refine .of_reads still_params.of_still reads_params fun {s m m' failure} hshows hrun hgiven => ?_
  obtain ⟨params, hparams⟩ := Option.isSome_iff_exists.1 hgiven
  have hread : Readable.params (Overlay.mk s.store m.context.updates) = .ok params := by
    rw [Readable.params, hshows.params, hparams]
    rfl
  rw [run_params, hread] at hrun
  cases hrun

theorem learns_stack? (name : String) :
    (stack? name : Execution ω _).Learns reg fun stack? => stack? = reg.catalog.get? name :=
  learns_view.bind fun _ ho => learns_stored (ho.catalog.read? name)

theorem learns_stack (name : String) :
    (stack name : Execution ω Stack).Learns reg fun stack =>
      reg.catalog.get? name = some stack := by
  refine (learns_stack? name).bind fun stack? hstack? => ?_
  cases stack? with
  | none => exact .fail rfl
  | some stack => exact Learns.pure hstack?.symm

theorem learns_chainlet? (chainId : String) :
    (chainlet? chainId : Execution ω _).Learns reg fun c? => c? = reg.chainlets.get? chainId :=
  learns_view.bind fun _ ho => learns_stored (ho.chainlet?_eq chainId)

theorem learns_chainlet (chainId : String) :
    (chainlet chainId : Execution ω Chainlet).Learns reg fun c =>
      reg.chainlets.get? chainId = some c := by
  refine (learns_chainlet? chainId).bind fun c? hc? => ?_
  cases c? with
  | none => exact .fail rfl
  | some c => exact Learns.pure hc?.symm

theorem learns_enabledVersion (name : String) (stack : Stack) (version : String) :
    (enabledVersion name stack version : Execution ω StackVersion).Learns reg fun v =>
      stack.enabled? version = some v := by
  rw [enabledVersion]
  cases stack.enabled? version with
  | none => exact .fail rfl
  | some v => exact Learns.pure rfl

/-! ### The version tree -/

/-- The tree can be read, as it is or rebuilt, when the stacks are in order. -/
theorem doesAt_tree (hcatalog : Catalog.WellFormed reg.catalog)
    (hshows : reg.ShownBy (Overlay.mk s.store m.context.updates)) :
    (tree : Execution ω VersionTree).DoesAt s m reg fun t events reg' =>
      ((tree : Execution ω VersionTree).run s m).1 = .ok t ∧ events = [] ∧ reg' = reg := by
  refine .of_silent silent_tree hshows fun {failure m'} hrun _ => ?_
  exfalso
  rcases bind_eq_error.1 hrun with hload | ⟨_, m₁, -, hrest⟩
  · change loadTree s m = _ at hload
    rw [loadTree] at hload
    split at hload
    · cases hload
    · split at hload
      next failure' hfailed =>
        obtain ⟨t, hrebuilt, -⟩ := VersionTree.rebuild_ok hshows.catalog hcatalog
        rw [StagedTree.load.eq_def, hrebuilt] at hfailed
        split at hfailed <;> cases hfailed
      next => cases hload
  · cases hrest

theorem learns_tree (hcatalog : Catalog.WellFormed reg.catalog) :
    (tree : Execution ω VersionTree).Learns reg fun _ => True := by
  intro s m hshows
  have htree : (tree : Execution ω VersionTree).DoesAt s m reg _ := doesAt_tree hcatalog hshows
  refine ⟨fun hrun => ?_, htree.sound⟩
  obtain ⟨events, reg', hevents, hshows', hparams, -, hnone, hsame⟩ := htree.done hrun
  exact ⟨events, reg', hevents, hshows', hparams, trivial, hnone, hsame⟩

theorem learns_changeTree (hcatalog : Catalog.WellFormed reg.catalog)
    (f : VersionTree → Except VersionError VersionTree) :
    (changeTree f : Execution ω Unit).Learns reg fun _ => True := by
  have hmodify (g : StagedTree → StagedTree) : (modifyContext fun c => { c with tree := g c.tree } :
      Execution ω Unit).Learns reg fun _ => True := by
    have hunwritten : Keeps Frame.unwritten (modifyContext fun c => { c with tree := g c.tree } :
        Execution ω Unit) := fun _ _ => rfl
    exact .of_reads (fun _ _ => ⟨rfl, rfl⟩) (hunwritten.reads reg) fun _ hrun => by cases hrun
  refine (learns_tree hcatalog).bind fun t _ => ?_
  refine (hmodify StagedTree.handOut).bind fun _ _ => ?_
  exact (learns_liftVersion _).bind fun t' _ =>
    hmodify fun staged => { staged with tree? := some t' }

/-! ### Storing -/

/-- The registry that is stored is what the rest begins with. -/
theorem Stores.bind {x : Execution ω α} {f : α → Execution ω β} (hx : x.Stores reg reg')
    (hf : ∀ a, (f a).Does reg' R) : (x >>= f).Does reg R := by
  refine Does.bind hx ?_
  rintro a _ _ ⟨rfl, rfl⟩
  exact hf a

/-- A write of one place fails only if the value is too long to be stored. -/
theorem stores_put {α : Type} [Stored.Format α] {entry : Entry} {a : α}
    (hwrites : (put entry a : Execution ω Unit).Writes reg reg')
    (hparams : reg'.params? = reg.params?) : (put entry a : Execution ω Unit).Stores reg reg' := by
  intro s m hshows
  constructor
  · intro u m' hrun
    obtain ⟨_, hshows', rfl⟩ := hwrites s m u m' hshows hrun
    rw [put] at hrun
    split at hrun
    next => cases hrun; exact ⟨[], _, (List.append_nil _).symm, hshows', hparams, rfl, rfl⟩
    next => cases hrun
  · intro failure m' hrun _
    rw [put] at hrun
    split at hrun
    next => cases hrun
    next => cases hrun; rfl

theorem stores_putStack (stack : Stack) :
    (putStack stack : Execution ω Unit).Stores reg (reg.putStack stack) :=
  stores_put (writes_putStack stack) rfl

theorem stores_putChainlet (c : Chainlet) :
    (putChainlet c : Execution ω Unit).Stores reg (reg.putChainlet c) :=
  stores_put (writes_putChainlet c) rfl

theorem stores_putPendingInit (chainId : String) (consumer : ConsumerId) :
    (putPendingInit chainId consumer : Execution ω Unit).Stores reg (reg.await chainId consumer) :=
  stores_put (writes_putPendingInit chainId consumer) rfl

theorem stores_putChainletCount (count : UInt64) :
    (putChainletCount count : Execution ω Unit).Stores reg (reg.withCount count) :=
  stores_put (writes_putChainletCount count) rfl

theorem stores_dropPendingInit (chainId : String) :
    (drop (.pendingInit chainId) : Execution ω Unit).Stores reg (reg.init chainId) := by
  intro s m hshows
  refine ⟨?_, fun hrun => by cases hrun⟩
  rintro _ _ ⟨⟩
  exact ⟨[], _, (List.append_nil _).symm, hshows.init chainId, rfl, rfl, rfl⟩

end Execution

end Chainlets
