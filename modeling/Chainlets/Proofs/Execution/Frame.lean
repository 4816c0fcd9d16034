import Chainlets.Execution

/-!
# What executions leave alone

A *frame* is a relation between the machine before an execution and the machine after it that holds
when nothing happens and holds of two executions in a row if it holds of each. An execution keeps a
frame whether it succeeds or fails, so programs are taken apart along their binds without a look at
their results.

Where a result does matter, a run that succeeded is taken apart into the runs of its parts.

## Main definitions

* `Frame`, with `Frame.still` — nothing changes — and `Frame.outside` — the context does not — and
  `Frame.noting` — of the context only the events do.
* `Execution.Keeps` — every run is within a frame.

## Main results

* `Execution.bind_eq_ok` — how a sequence succeeded.
* `Execution.Keeps.bind`, `Execution.Keeps.forM`, … — programs keep a frame that their parts keep.
-/

namespace Chainlets

/-- A relation between the machines before and after, which does not count steps. -/
structure Frame (ω : Type) where
  /-- The relation, in given surroundings. -/
  Rel : Surroundings ω → Machine ω → Machine ω → Prop
  refl : ∀ s m, Rel s m m
  trans : ∀ {s m₁ m₂ m₃}, Rel s m₁ m₂ → Rel s m₂ m₃ → Rel s m₁ m₃

namespace Frame

variable {ω : Type}

/-- Nothing changes. -/
def still : Frame ω := ⟨fun _ m m' => m' = m, fun _ _ => rfl, fun h h' => h'.trans h⟩

/-- The context does not change, whatever is done to the parent chain and the log. -/
def outside : Frame ω :=
  ⟨fun _ m m' => m'.context = m.context, fun _ _ => rfl, fun h h' => h'.trans h⟩

/-- Of the context only the events change, whatever is done to the parent chain and the log. -/
def noting : Frame ω where
  Rel _ m m' := m'.context = { m.context with events := m'.context.events }
  refl _ _ := rfl
  trans {_ _ _ _} h h' := by rw [h', h]

end Frame

namespace Execution

variable {ω α β : Type} {s : Surroundings ω} {m m' : Machine ω}

/-! ### Runs of sequences -/

/-- A sequence succeeds when its first part does and then its second. -/
theorem bind_eq_ok {x : Execution ω α} {f : α → Execution ω β} {b : β} :
    (x >>= f).run s m = (.ok b, m') ↔
      ∃ a m₁, x.run s m = (.ok a, m₁) ∧ (f a).run s m₁ = (.ok b, m') := by
  rw [run_bind]
  constructor
  · intro h
    cases hx : x.run s m with
    | mk result m₁ =>
      rw [hx] at h
      cases result with
      | error failure => cases h
      | ok a => exact ⟨a, m₁, rfl, h⟩
  · rintro ⟨a, m₁, hx, hf⟩
    rw [hx]
    exact hf

theorem run_bind_of_ok {x : Execution ω α} {f : α → Execution ω β} {a : α}
    (h : x.run s m = (.ok a, m')) : (x >>= f).run s m = (f a).run s m' := by
  rw [run_bind, h]

theorem run_bind_of_error {x : Execution ω α} {f : α → Execution ω β} {failure : Failure}
    (h : x.run s m = (.error failure, m')) : (x >>= f).run s m = (.error failure, m') := by
  rw [run_bind, h]

/-- The failure of a part is handed on as a value. -/
theorem run_outcome {x : Execution ω α} {result : Except Failure α} (h : x.run s m = (result, m')) :
    x.outcome.run s m = (.ok result, m') :=
  calc x.outcome.run s m = (.ok (x.run s m).1, (x.run s m).2) := rfl
    _ = (.ok result, m') := by rw [h]

/-- A sequence fails when its first part does, or when its second does after that. -/
theorem bind_eq_error {x : Execution ω α} {f : α → Execution ω β} {failure : Failure} :
    (x >>= f).run s m = (.error failure, m') ↔
      x.run s m = (.error failure, m') ∨
        ∃ a m₁, x.run s m = (.ok a, m₁) ∧ (f a).run s m₁ = (.error failure, m') := by
  rw [run_bind]
  cases hx : x.run s m with
  | mk result m₁ =>
    cases result with
    | error failure' => simp
    | ok a => simp [and_assoc]

@[simp]
theorem fail_bind (failure : Failure) (f : α → Execution ω β) :
    (fail failure >>= f) = fail failure := rfl

/-- What comes after a check succeeds when the check is passed and it succeeds then. -/
theorem guarded_eq_ok {c : Prop} [Decidable c] {failure : Failure} {f : α → Execution ω β}
    {x : Execution ω β} {b : β} :
    (if c then fail failure >>= f else x).run s m = (.ok b, m') ↔
      ¬ c ∧ x.run s m = (.ok b, m') := by
  by_cases h : c
  · simp [h]
  · simp [h]

/-! ### Frames -/

/-- Every run of an execution is within a frame. -/
def Keeps (F : Frame ω) (x : Execution ω α) : Prop := ∀ s m, F.Rel s m (x.run s m).2

namespace Keeps

variable {F G : Frame ω}

theorem mono {x : Execution ω α} (h : Keeps F x)
    (himp : ∀ {s m m'}, F.Rel s m m' → G.Rel s m m') : Keeps G x := fun s m => himp (h s m)

theorem of_still {x : Execution ω α} (h : Keeps Frame.still x) : Keeps F x :=
  h.mono fun {s m m'} (heq : m' = m) => heq ▸ F.refl s m

/-- A run that is within a frame, taken from its equation. -/
theorem rel {x : Execution ω α} (h : Keeps F x) {result : Except Failure α}
    (hrun : x.run s m = (result, m')) : F.Rel s m m' := by
  have hrel := h s m
  rw [hrun] at hrel
  exact hrel

theorem pure (a : α) : Keeps F (Pure.pure a : Execution ω α) := fun s m => F.refl s m

theorem fail (failure : Failure) : Keeps F (fail failure : Execution ω α) := fun s m => F.refl s m

theorem bind {x : Execution ω α} {f : α → Execution ω β} (hx : Keeps F x)
    (hf : ∀ a, Keeps F (f a)) : Keeps F (x >>= f) := fun s m => by
  have hx := hx s m
  rw [run_bind]
  cases hrun : x.run s m with
  | mk result m₁ =>
    rw [hrun] at hx
    cases result with
    | error failure => exact hx
    | ok a => exact F.trans hx (hf a s m₁)

theorem map {x : Execution ω α} (hx : Keeps F x) (f : α → β) : Keeps F (f <$> x) := by
  rw [map_eq_pure_bind]
  exact hx.bind fun a => pure (f a)

theorem ite {c : Prop} [Decidable c] {x y : Execution ω α} (hx : Keeps F x) (hy : Keeps F y) :
    Keeps F (if c then x else y) := by
  split
  · exact hx
  · exact hy

/-- A check, and what comes after it if it is passed. -/
theorem guarded {c : Prop} [Decidable c] {failure : Failure} {f : α → Execution ω β}
    {x : Execution ω β} (hx : Keeps F x) :
    Keeps F (if c then Execution.fail failure >>= f else x) :=
  ite (fail failure) hx

theorem forM {f : α → Execution ω Unit} {l : List α} (h : ∀ a ∈ l, Keeps F (f a)) :
    Keeps F (l.forM f) := by
  induction l with
  | nil => exact pure ()
  | cons a l ih =>
    exact bind (h a List.mem_cons_self) fun _ => ih fun b hb => h b (List.mem_cons_of_mem _ hb)

/-- The failure of a part is handed on as a value; what the part did stays done. -/
theorem outcome {x : Execution ω α} (hx : Keeps F x) : Keeps F x.outcome := fun s m => by
  have hx := hx s m
  rw [run] at hx ⊢
  rw [Execution.outcome]
  cases hrun : x s m with
  | mk result m₁ =>
    rw [hrun] at hx
    exact hx

/-- A part of which nothing is kept if it fails, for a frame that allows for that. -/
theorem atomic {x : Execution ω α} (hx : Keeps F x)
    (hundo : ∀ {s m m'}, F.Rel s m m' →
      F.Rel s m { m' with context := m.context.rollback m'.context }) :
    Keeps F x.atomic := fun s m => by
  have hx := hx s m
  cases hrun : x.run s m with
  | mk result m₁ =>
    rw [hrun] at hx
    cases result with
    | ok a => rw [run_atomic_of_ok hrun]; exact hx
    | error failure => rw [run_atomic_of_error hrun]; exact hundo hx

end Keeps

/-! ### Reading -/

theorem still_view : Keeps Frame.still (view : Execution ω Overlay) := fun _ _ => rfl

theorem still_context : Keeps Frame.still (context : Execution ω Context) := fun _ _ => rfl

theorem still_ask (question : Parent ω → ω → α) : Keeps Frame.still (ask question) :=
  fun _ _ => rfl

theorem still_liftStorage (x : Except StorageFault α) :
    Keeps Frame.still (liftM x : Execution ω α) := fun _ _ => rfl

theorem still_liftVersion (x : Except VersionError α) :
    Keeps Frame.still (liftM x : Execution ω α) := fun _ _ => rfl

theorem still_liftChannel (x : Except ChannelFault α) :
    Keeps Frame.still (liftM x : Execution ω α) := fun _ _ => rfl

theorem still_liftPacket (x : Except BadPacket α) :
    Keeps Frame.still (liftM x : Execution ω α) := fun _ _ => rfl

theorem still_liftFailure (x : Except Failure α) :
    Keeps Frame.still (liftM x : Execution ω α) := fun _ _ => rfl

theorem still_params : Keeps Frame.still (params : Execution ω Params) :=
  still_view.bind fun _ => still_liftStorage _

theorem still_stack? (name : String) : Keeps Frame.still (stack? name : Execution ω _) :=
  still_view.bind fun _ => still_liftStorage _

theorem still_stack (name : String) : Keeps Frame.still (stack name : Execution ω Stack) :=
  (still_stack? name).bind fun
    | some stack => Keeps.pure stack
    | none => Keeps.fail _

theorem still_chainlet? (chainId : String) :
    Keeps Frame.still (chainlet? chainId : Execution ω _) :=
  still_view.bind fun _ => still_liftStorage _

theorem still_chainlet (chainId : String) :
    Keeps Frame.still (chainlet chainId : Execution ω Chainlet) :=
  (still_chainlet? chainId).bind fun
    | some chainlet => Keeps.pure chainlet
    | none => Keeps.fail _

theorem still_enabledVersion (name : String) (stack : Stack) (version : String) :
    Keeps Frame.still (enabledVersion name stack version : Execution ω StackVersion) := by
  rw [enabledVersion]
  cases stack.enabled? version with
  | some v => exact Keeps.pure v
  | none => exact Keeps.fail _

/-! ### The parent chain and the log -/

theorem outside_log (entry : LogEntry) : Keeps Frame.outside (log entry : Execution ω Unit) :=
  fun _ _ => rfl

theorem outside_order (command : Parent ω → ω → ω) : Keeps Frame.outside (order command) :=
  fun _ _ => rfl

theorem outside_attempt (command : Parent ω → ω → Called ω α) :
    Keeps Frame.outside (attempt command) := fun _ _ => rfl

theorem outside_call (command : Parent ω → ω → Called ω α) : Keeps Frame.outside (call command) :=
  (outside_attempt command).bind fun
    | .ok a => Keeps.pure a
    | .error _ => Keeps.fail _

/-! ### Events -/

theorem noting_of_outside {x : Execution ω α} (h : Keeps Frame.outside x) : Keeps Frame.noting x :=
  h.mono fun {_ m m'} (heq : m'.context = m.context) => by
    change m'.context = _
    rw [heq]

theorem noting_emit (event : Event) : Keeps Frame.noting (emit event : Execution ω Unit) :=
  fun _ _ => rfl

end Execution

end Chainlets
