import Chainlets.Proofs.Registry.Callbacks

/-!
# Registries only grow

Nothing is taken out of a registry. A stack stays with everything that was said when it was created;
it gets further versions behind those that it has, and of a version that is there only one thing can
change: it can be disabled, for good. A chainlet stays with everything that was said when it was
launched. Besides that, it becomes a consumer at most once, and keeps its name as one.

Every move appends in this sense, and a step of the handshake leaves what was said of a chainlet as
it is. That a chainlet that joins as a consumer had no name as one before is where the registry has
to be well-formed.

## Main definitions

* `StackVersion.Ages`, `Stack.Extends`, `Chainlet.Persists` — what may become of a record.
* `Registry.Appends` — what may become of a registry.

## Main results

* `Registry.Moves.appends` — **moves append.**
-/

namespace Chainlets

/-! ### Versions and stacks -/

/-- A version later on: it is the same, or it was enabled and is disabled now. -/
def StackVersion.Ages (v v' : StackVersion) : Prop :=
  v' = v ∨ v.enabled = true ∧ v' = { v with enabled := false }

namespace StackVersion.Ages

variable {v v' v'' : StackVersion}

theorem refl (v : StackVersion) : v.Ages v := .inl rfl

theorem trans (h : v.Ages v') (h' : v'.Ages v'') : v.Ages v'' := by
  rcases h with rfl | ⟨henabled, rfl⟩
  · exact h'
  · rcases h' with rfl | ⟨hagain, -⟩
    · exact .inr ⟨henabled, rfl⟩
    · cases hagain

theorem disabled (v : StackVersion) : v.Ages { v with enabled := false } := by
  cases henabled : v.enabled with
  | true => exact .inr ⟨henabled, rfl⟩
  | false =>
    refine .inl ?_
    obtain ⟨image, version, checksum, enabled, isConsumer⟩ := v
    cases henabled
    rfl

end StackVersion.Ages

/-- A stack later on. Its versions are where they were, and others may have come behind them. -/
structure Stack.Extends (stack stack' : Stack) : Prop where
  name : stack'.name = stack.name
  description : stack'.description = stack.description
  fees : stack'.fees = stack.fees
  versions : ∀ {i : Nat} {v : StackVersion}, stack.versions[i]? = some v →
    ∃ v', stack'.versions[i]? = some v' ∧ v.Ages v'

namespace Stack.Extends

variable {stack stack' stack'' : Stack}

theorem refl (stack : Stack) : stack.Extends stack :=
  ⟨rfl, rfl, rfl, fun {_ v} hv => ⟨v, hv, .refl v⟩⟩

theorem trans (h : stack.Extends stack') (h' : stack'.Extends stack'') :
    stack.Extends stack'' where
  name := h'.name.trans h.name
  description := h'.description.trans h.description
  fees := h'.fees.trans h.fees
  versions {i v} hv := by
    obtain ⟨v', hv', hages⟩ := h.versions hv
    obtain ⟨v'', hv'', hages'⟩ := h'.versions hv'
    exact ⟨v'', hv'', hages.trans hages'⟩

theorem addVersion (stack : Stack) (v : StackVersion) : stack.Extends (stack.addVersion v) :=
  ⟨rfl, rfl, rfl, fun {_ w} hw =>
    ⟨w, List.getElem?_append_left (List.getElem?_eq_some_iff.1 hw).1 ▸ hw, .refl w⟩⟩

/-- Of versions the first with a version text is disabled, where it is. -/
theorem versions_disableFirst (version : String) {versions : List StackVersion} {i : Nat}
    {v : StackVersion} (hv : versions[i]? = some v) :
    ∃ v', (Stack.disableFirst version versions)[i]? = some v' ∧ v.Ages v' := by
  induction versions generalizing i with
  | nil => cases hv
  | cons w rest ih =>
    rw [Stack.disableFirst]
    cases i with
    | zero =>
      obtain rfl : w = v := Option.some.inj hv
      split
      next => exact ⟨_, rfl, .disabled w⟩
      next => exact ⟨_, rfl, .refl w⟩
    | succ i =>
      split
      next => exact ⟨v, hv, .refl v⟩
      next => exact ih hv

theorem disable (stack : Stack) (version : String) : stack.Extends (stack.disable version) :=
  ⟨rfl, rfl, rfl, versions_disableFirst version⟩

end Stack.Extends

/-! ### Chainlets -/

/-- A chainlet later on. Its version, its status and its pending upgrade may be others, and it may
have become a consumer. -/
structure Chainlet.Persists (c c' : Chainlet) : Prop where
  chainId : c'.chainId = c.chainId
  name : c'.name = c.name
  launcher : c'.launcher = c.launcher
  maintainers : c'.maintainers = c.maintainers
  stack : c'.stack = c.stack
  autoUpgrade : c'.autoUpgrade = c.autoUpgrade
  spawnTime : c'.spawnTime = c.spawnTime
  isService : c'.isService = c.isService
  isConsumer : c.isConsumer = true → c'.isConsumer = true
  consumer? : ∀ {consumer}, c.consumer? = some consumer → c'.consumer? = some consumer

namespace Chainlet.Persists

variable {catalog : Catalog} {c c' c'' : Chainlet}

theorem refl (c : Chainlet) : c.Persists c := ⟨rfl, rfl, rfl, rfl, rfl, rfl, rfl, rfl, id, id⟩

theorem trans (h : c.Persists c') (h' : c'.Persists c'') : c.Persists c'' where
  chainId := h'.chainId.trans h.chainId
  name := h'.name.trans h.name
  launcher := h'.launcher.trans h.launcher
  maintainers := h'.maintainers.trans h.maintainers
  stack := h'.stack.trans h.stack
  autoUpgrade := h'.autoUpgrade.trans h.autoUpgrade
  spawnTime := h'.spawnTime.trans h.spawnTime
  isService := h'.isService.trans h.isService
  isConsumer := h'.isConsumer ∘ h.isConsumer
  consumer? hconsumer := h'.consumer? (h.consumer? hconsumer)

/-- A chainlet that joins as a consumer had no name as one. -/
theorem join (hc : c.Sound catalog) (alone : c.isConsumer = false) (consumer : ConsumerId) :
    c.Persists (c.join consumer) := by
  refine ⟨rfl, rfl, rfl, rfl, rfl, rfl, rfl, rfl, fun _ => rfl, fun {old} hold => ?_⟩
  have hconsumer : c.isConsumer = true := hc.consumer.2 (by rw [hold]; rfl)
  rw [alone] at hconsumer
  cases hconsumer

theorem turn (h : c.Turn catalog c') : c.Persists c' := by
  cases h <;> exact ⟨rfl, rfl, rfl, rfl, rfl, rfl, rfl, rfl, id, id⟩

theorem apply (c : Chainlet) (t : Handshake.Transition) : c.Persists (t.apply c) := by
  cases t <;> exact ⟨rfl, rfl, rfl, rfl, rfl, rfl, rfl, rfl, id, id⟩

end Chainlet.Persists

/-! ### Registries -/

/-- A registry later on: the parameters are the same, and stacks and chainlets stay. -/
structure Registry.Appends (reg reg' : Registry) : Prop where
  params : reg'.params? = reg.params?
  catalog : ∀ {name stack}, reg.catalog.get? name = some stack →
    ∃ stack', reg'.catalog.get? name = some stack' ∧ stack.Extends stack'
  chainlets : ∀ {chainId c}, reg.chainlets.get? chainId = some c →
    ∃ c', reg'.chainlets.get? chainId = some c' ∧ c.Persists c'

namespace Registry

variable {reg reg' reg'' : Registry}

namespace Appends

theorem refl (reg : Registry) : reg.Appends reg :=
  ⟨rfl, fun {_ stack} h => ⟨stack, h, .refl stack⟩, fun {_ c} h => ⟨c, h, .refl c⟩⟩

theorem trans (h : reg.Appends reg') (h' : reg'.Appends reg'') : reg.Appends reg'' where
  params := h'.params.trans h.params
  catalog hstack := by
    obtain ⟨stack', hstack', hextends⟩ := h.catalog hstack
    obtain ⟨stack'', hstack'', hextends'⟩ := h'.catalog hstack'
    exact ⟨stack'', hstack'', hextends.trans hextends'⟩
  chainlets hc := by
    obtain ⟨c', hc', hpersists⟩ := h.chainlets hc
    obtain ⟨c'', hc'', hpersists'⟩ := h'.chainlets hc'
    exact ⟨c'', hc'', hpersists.trans hpersists'⟩

/-- A stack is written over one that it extends, or where there is none. -/
theorem putStack {stack : Stack}
    (h : ∀ {old}, reg.catalog.get? stack.name = some old → old.Extends stack) :
    reg.Appends (reg.putStack stack) := by
  refine ⟨rfl, fun {name old} hold => ?_, (refl reg).chainlets⟩
  change ∃ stack', (reg.catalog.insert stack.name stack).get? name = some stack' ∧ _
  rw [OrderedMap.get?_insert]
  split
  next heq => exact ⟨stack, rfl, h (heq ▸ hold)⟩
  next => exact ⟨old, hold, .refl old⟩

/-- A chainlet is written over one that persists in it, or where there is none. -/
theorem putChainlet {c : Chainlet}
    (h : ∀ {old}, reg.chainlets.get? c.chainId = some old → old.Persists c) :
    reg.Appends (reg.putChainlet c) := by
  refine ⟨rfl, (refl reg).catalog, fun {chainId old} hold => ?_⟩
  change ∃ c', (reg.chainlets.insert c.chainId c).get? chainId = some c' ∧ _
  rw [OrderedMap.get?_insert]
  split
  next heq => exact ⟨c, rfl, h (heq ▸ hold)⟩
  next => exact ⟨old, hold, .refl old⟩

/-- A chainlet is written over its own record. -/
theorem putChainlet_of_held {c c' : Chainlet} (held : reg.chainlets.get? c.chainId = some c)
    (h : c.Persists c') : reg.Appends (reg.putChainlet c') :=
  putChainlet fun {old} hold => by
    rw [h.chainId, held] at hold
    exact Option.some.inj hold ▸ h

end Appends

/-- Each move appends. -/
theorem Move.appends (hmove : reg.Move reg') (hreg : reg.WellFormed) : reg.Appends reg' := by
  cases hmove with
  | create free wellFormed =>
    refine .putStack fun {old} hold => ?_
    rw [free] at hold
    cases hold
  | @extend stack v held parses apart =>
    refine .putStack fun {old} hold => ?_
    obtain rfl : stack = old := Option.some.inj (held.symm.trans hold)
    exact .addVersion stack v
  | @disable stack version held =>
    refine .putStack fun {old} hold => ?_
    obtain rfl : stack = old := Option.some.inj (held.symm.trans hold)
    exact .disable stack version
  | @launch c params given room free sound =>
    have hput : reg.Appends (reg.putChainlet c) := .putChainlet fun {old} hold => by
      rw [free] at hold
      cases hold
    rw [await?_eq]
    exact ⟨hput.params, hput.catalog, hput.chainlets⟩
  | join consumer held alone =>
    have hput := Appends.putChainlet_of_held held
      (.join (hreg.chainlets _ _ held).2 alone consumer)
    exact ⟨hput.params, hput.catalog, hput.chainlets⟩
  | turn held turn => exact .putChainlet_of_held held (.turn turn)
  | init chainId => exact ⟨rfl, (Appends.refl reg).catalog, (Appends.refl reg).chainlets⟩

/-- **Moves append.** -/
theorem Moves.appends (hmoves : reg.Moves reg') (hreg : reg.WellFormed) : reg.Appends reg' := by
  induction hmoves with
  | refl => exact .refl reg
  | tail hmoves hmove ih => exact ih.trans (hmove.appends (Moves.wellFormed hmoves hreg))

end Registry

end Chainlets
