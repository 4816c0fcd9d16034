import Chainlets.Proofs.Registry.Acts
import Chainlets.Proofs.VersionTree.Greatest

/-!
# Who is behind, and what comes of it

What the scan at the beginning of a block is to do can be read off the version tree before it does
anything. Then every chainlet that is behind has its turn. It is moved, and joins if the version
that it is moved to runs as a consumer; or its consumer cannot be registered, and it is left as it
is. What a turn leaves to those after it is the parent chain only, which may have been changed by a
registration, whether or not that worked.

All this is said here without running anything: by asking the tree, the stacks, and the parent chain
turn by turn.

## Main definitions

* `Chainlet.Behind`, `VersionTree.plan` — who is to be moved, and where.
* `Parent.enlist`, `Parent.fate`, `Parent.fates` — what comes of the turns.
* `Registry.moved`, `Registry.movedAll` — the registry after a turn, and after all of them.

## Main results

* `Parent.fate_cases` — why a turn comes to what it does.
* `Registry.movedAll_of_mem`, `Registry.movedAll_of_ne` — what one turn leaves is what all of them
  leave, and who has none is left alone.
-/

namespace Chainlets

/-! ### Plans -/

/-- A chainlet takes part in automatic upgrades, no upgrade of it is pending, and the tree offers it
a version other than the one that it runs. -/
structure Chainlet.Behind (t : VersionTree) (c : Chainlet) (target : String) : Prop where
  takesPart : c.autoUpgrade = true
  idle : c.upgrade? = none
  offered : t.latestCompatible c.stack c.version = .ok target
  other : target ≠ c.version

namespace VersionTree

/-- The version that a chainlet is to be moved to, if it is behind. -/
def target? (t : VersionTree) (c : Chainlet) : Option String :=
  if !c.autoUpgrade || c.upgrade?.isSome then none
  else (t.latestCompatible c.stack c.version).toOption.filter fun latest => latest ≠ c.version

/-- The chainlets that are behind, and where they are to be moved. -/
def plan (t : VersionTree) (chainlets : List Chainlet) : List (Chainlet × String) :=
  chainlets.filterMap fun c => (t.target? c).map fun target => (c, target)

variable {t : VersionTree} {c : Chainlet} {target : String} {chainlets : List Chainlet}

theorem target?_eq_some_iff : t.target? c = some target ↔ c.Behind t target := by
  rw [target?]
  constructor
  · intro h
    split at h
    next => cases h
    next htakesPart =>
      obtain ⟨hlatest, hother⟩ := Option.filter_eq_some_iff.1 h
      cases hoffer : t.latestCompatible c.stack c.version with
      | error fault => rw [hoffer] at hlatest; cases hlatest
      | ok latest =>
        rw [hoffer] at hlatest
        cases hlatest
        simp only [Bool.or_eq_true, Bool.not_eq_true', not_or] at htakesPart
        exact ⟨by simpa using htakesPart.1, by simpa using htakesPart.2, hoffer,
          by simpa using hother⟩
  · rintro ⟨htakesPart, hidle, hoffered, hother⟩
    rw [if_neg (by simp [htakesPart, hidle]), hoffered]
    exact Option.filter_eq_some_iff.2 ⟨rfl, by simpa using hother⟩

theorem mem_plan_iff : (c, target) ∈ t.plan chainlets ↔ c ∈ chainlets ∧ c.Behind t target := by
  rw [plan, List.mem_filterMap]
  constructor
  · rintro ⟨d, hd, h⟩
    obtain ⟨target', htarget, heq⟩ := Option.map_eq_some_iff.1 h
    cases heq
    exact ⟨hd, target?_eq_some_iff.1 htarget⟩
  · rintro ⟨hc, hbehind⟩
    exact ⟨c, hc, by rw [target?_eq_some_iff.2 hbehind]; rfl⟩

/-- The tree has an answer for every version. -/
theorem exists_latestCompatible (t : VersionTree) (stack : String) {current : String} {v : Version}
    (hv : Version.parse current = .ok v) :
    ∃ latest, t.latestCompatible stack current = .ok latest := by
  cases hnewest : t.newestOf? stack v with
  | none => exact ⟨_, latestCompatible_of_none hv hnewest⟩
  | some newest => exact ⟨_, latestCompatible_of_some hv hnewest⟩

/-- The chainlets of a plan, in the order in which they were considered. -/
theorem map_fst_plan (t : VersionTree) (chainlets : List Chainlet) :
    (t.plan chainlets).map (·.1) = chainlets.filter fun c => (t.target? c).isSome := by
  rw [plan, List.map_filterMap, ← List.filterMap_eq_filter]
  refine congrArg (List.filterMap · chainlets) (funext fun c => ?_)
  cases h : t.target? c <;> simp [Option.guard, h]

end VersionTree

/-- A version of a stack can be launched and upgraded to, and runs as a consumer. -/
def Catalog.runsConsumer (catalog : Catalog) (stack version : String) : Bool :=
  ((OrderedMap.get? catalog stack).bind fun found => found.enabled? version).any (·.isConsumer)

/-- A chainlet has to join as a consumer before it is moved to a version. -/
def Chainlet.mustJoin (c : Chainlet) (catalog : Catalog) (target : String) : Bool :=
  !c.isConsumer && catalog.runsConsumer c.stack target

/-! ### Turns -/

/-- What comes of the turn of a chainlet. -/
inductive Fate where
  /-- It is moved. If it had to join for that, this is the consumer that was created for it. -/
  | moved (consumer? : Option ConsumerId)
  /-- Its consumer could not be registered. -/
  | refused
deriving DecidableEq

/-- Whether a chainlet was moved to another version of its series. -/
def Event.isUpgrade : Event → Bool
  | .upgradeChainlet .. => true
  | _ => false

namespace Fate

/-- Whether the chainlet is moved. -/
def isMoved : Fate → Bool
  | moved _ => true
  | refused => false

/-- The consumer that was registered for the chainlet. -/
def consumer? : Fate → Option ConsumerId
  | moved consumer? => consumer?
  | refused => none

/-- The record of the chainlet after its turn. -/
def record (c : Chainlet) (target : String) : Fate → Chainlet
  | moved consumer? => { c.join? consumer? with version := target }
  | refused => c

/-- The events of the turn. -/
def events (c : Chainlet) (target : String) : Fate → List Event
  | moved consumer? =>
    Event.joining c.chainId consumer? ++ [.upgradeChainlet c.chainId c.version target true]
  | refused => []

@[simp]
theorem chainId_record (fate : Fate) (c : Chainlet) (target : String) :
    (fate.record c target).chainId = c.chainId := by
  cases fate with
  | moved consumer? => exact Chainlet.chainId_join? c consumer?
  | refused => rfl

end Fate

namespace Parent

variable {ω : Type}

/-- The registration of a chainlet as a consumer: the consumer that is created for it, and the
parent chain afterwards. It fails if there are no parameters, if no consumer is created, or if one
is created under a name that is too long to be stored. -/
def enlist (parent : Parent ω) (params? : Option Params) (time : Time) (chainId : String)
    (world : ω) : Option ConsumerId × ω :=
  match params? with
  | none => (none, world)
  | some params =>
    match parent.createConsumer chainId time params.unbondingPeriod world with
    | (.error _, world) => (none, world)
    | (.ok consumer, world) =>
      (if Stored.fits consumer then some consumer else none,
        parent.advanceValidatorSetId
          (parent.queueChange consumer (.empty (parent.validatorSetId world)) world))

/-- How a registration works that works. -/
theorem enlist_eq_some {parent : Parent ω} {params : Params} {time : Time} {chainId : String}
    {world world' : ω} {consumer : ConsumerId}
    (h : parent.enlist (some params) time chainId world = (some consumer, world')) :
    Stored.fits consumer = true ∧ ∃ created,
      parent.createConsumer chainId time params.unbondingPeriod world = (.ok consumer, created) ∧
      world' = parent.advanceValidatorSetId
        (parent.queueChange consumer (.empty (parent.validatorSetId created)) created) := by
  rw [enlist.eq_def] at h
  dsimp only at h
  split at h
  next => cases h
  next found created hcreate =>
    by_cases hfits : Stored.fits found = true
    · rw [if_pos hfits] at h
      cases h
      exact ⟨hfits, created, hcreate, rfl⟩
    · rw [if_neg hfits] at h
      cases h

/-- What comes of the turn of a chainlet, and the parent chain afterwards. The chainlet is
registered if it has to join. -/
def fate (parent : Parent ω) (reg : Registry) (time : Time) (c : Chainlet) (target : String)
    (world : ω) : Fate × ω :=
  if c.mustJoin reg.catalog target then
    ((parent.enlist reg.params? time c.chainId world).1.elim .refused fun consumer =>
      .moved (some consumer), (parent.enlist reg.params? time c.chainId world).2)
  else (.moved none, world)

/-- Why a turn comes to what it does. -/
theorem fate_cases (parent : Parent ω) (reg : Registry) (time : Time) (c : Chainlet)
    (target : String) (world : ω) :
    (∃ consumer?, (parent.fate reg time c target world).1 = .moved consumer? ∧
      (consumer?.isSome = true ↔ c.mustJoin reg.catalog target = true)) ∨
    (parent.fate reg time c target world).1 = .refused ∧ c.mustJoin reg.catalog target = true ∧
      (parent.enlist reg.params? time c.chainId world).1 = none := by
  rw [fate]
  by_cases hjoins : c.mustJoin reg.catalog target = true
  · rw [if_pos hjoins]
    cases henlisted : (parent.enlist reg.params? time c.chainId world).1 with
    | none => exact .inr ⟨rfl, hjoins, rfl⟩
    | some consumer => exact .inl ⟨some consumer, rfl, by simp [hjoins]⟩
  · rw [if_neg hjoins]
    exact .inl ⟨none, rfl, by simp [hjoins]⟩

/-- The turns of chainlets, and what comes of them. Every turn finds the parent chain as those
before it left it. -/
def fates (parent : Parent ω) (reg : Registry) (time : Time) :
    List (Chainlet × String) → ω → List ((Chainlet × String) × Fate)
  | [], _ => []
  | (c, target) :: rest, world =>
    ((c, target), (parent.fate reg time c target world).1) ::
      fates parent reg time rest (parent.fate reg time c target world).2

/-- Everyone in the plan has a turn, in the order of the plan. -/
@[simp]
theorem map_fst_fates (parent : Parent ω) (reg : Registry) (time : Time)
    (plan : List (Chainlet × String)) (world : ω) :
    (parent.fates reg time plan world).map (·.1) = plan := by
  induction plan generalizing world with
  | nil => rfl
  | cons move rest ih => rw [fates, List.map_cons, ih]

theorem exists_fate_of_mem_fates {parent : Parent ω} {reg : Registry} {time : Time}
    {plan : List (Chainlet × String)} {world : ω} {c : Chainlet} {target : String} {fate : Fate}
    (h : ((c, target), fate) ∈ parent.fates reg time plan world) :
    ∃ world', (parent.fate reg time c target world').1 = fate := by
  induction plan generalizing world with
  | nil => cases h
  | cons move rest ih =>
    rcases List.mem_cons.1 h with heq | h
    · cases heq
      exact ⟨world, rfl⟩
    · exact ih h

end Parent

namespace Registry

variable {ω : Type} {reg : Registry} {c : Chainlet} {target : String}

/-- The registry after the turn of a chainlet. -/
def moved (reg : Registry) (c : Chainlet) (target : String) (fate : Fate) : Registry :=
  (reg.await? c.chainId fate.consumer?).putChainlet (fate.record c target)

@[simp]
theorem catalog_moved (fate : Fate) : (reg.moved c target fate).catalog = reg.catalog :=
  catalog_await? ..

@[simp]
theorem count_moved (fate : Fate) : (reg.moved c target fate).count = reg.count :=
  count_await? ..

@[simp]
theorem params?_moved (fate : Fate) : (reg.moved c target fate).params? = reg.params? :=
  params?_await? ..

theorem get?_chainlets_moved (fate : Fate) (chainId : String) :
    (reg.moved c target fate).chainlets.get? chainId =
      if chainId = c.chainId then some (fate.record c target) else reg.chainlets.get? chainId := by
  change ((reg.await? c.chainId fate.consumer?).chainlets.insert _ _).get? chainId = _
  rw [OrderedMap.get?_insert, chainlets_await?, Fate.chainId_record]

theorem get?_waiting_moved (fate : Fate) (chainId : String) :
    (reg.moved c target fate).waiting.get? chainId =
      (if chainId = c.chainId then fate.consumer? else none).or (reg.waiting.get? chainId) :=
  get?_waiting_await? ..

/-- A chainlet that is refused is left as it is. -/
theorem moved_refused (hc : reg.chainlets.get? c.chainId = some c) :
    reg.moved c target .refused = reg := by
  change { reg with chainlets := reg.chainlets.insert c.chainId c } = reg
  rw [OrderedMap.insert_of_get? hc]

/-- What comes of a turn depends on the stacks and the parameters only, and turns change neither. -/
theorem fate_moved (parent : Parent ω) (fate : Fate) :
    parent.fate (reg.moved c target fate) = parent.fate reg := by
  funext time d target' world
  rw [Parent.fate, Parent.fate, catalog_moved, params?_moved]

theorem fates_moved (parent : Parent ω) (fate : Fate) (time : Time)
    (plan : List (Chainlet × String)) (world : ω) :
    parent.fates (reg.moved c target fate) time plan world = parent.fates reg time plan world := by
  induction plan generalizing world with
  | nil => rfl
  | cons move rest ih => rw [Parent.fates, Parent.fates, fate_moved, ih]

/-- The registry after many turns. -/
def movedAll (reg : Registry) (turns : List ((Chainlet × String) × Fate)) : Registry :=
  turns.foldl (fun reg turn => reg.moved turn.1.1 turn.1.2 turn.2) reg

variable {turns : List ((Chainlet × String) × Fate)}

theorem rest_movedAll (reg : Registry) (turns : List ((Chainlet × String) × Fate)) :
    (reg.movedAll turns).catalog = reg.catalog ∧ (reg.movedAll turns).count = reg.count ∧
      (reg.movedAll turns).params? = reg.params? := by
  induction turns generalizing reg with
  | nil => exact ⟨rfl, rfl, rfl⟩
  | cons turn rest ih =>
    obtain ⟨hcatalog, hcount, hparams⟩ := ih (reg.moved turn.1.1 turn.1.2 turn.2)
    exact ⟨hcatalog.trans (catalog_moved _), hcount.trans (count_moved _),
      hparams.trans (params?_moved _)⟩

/-- Those who have no turn are left alone. -/
theorem movedAll_of_ne (reg : Registry) {chainId : String}
    (h : ∀ turn ∈ turns, chainId ≠ turn.1.1.chainId) :
    (reg.movedAll turns).chainlets.get? chainId = reg.chainlets.get? chainId ∧
      (reg.movedAll turns).waiting.get? chainId = reg.waiting.get? chainId := by
  induction turns generalizing reg with
  | nil => exact ⟨rfl, rfl⟩
  | cons turn rest ih =>
    obtain ⟨hchainlets, hwaiting⟩ := ih (reg.moved turn.1.1 turn.1.2 turn.2)
      fun other hother => h other (List.mem_cons_of_mem _ hother)
    have hne := h turn List.mem_cons_self
    refine ⟨hchainlets.trans ?_, hwaiting.trans ?_⟩
    · rw [get?_chainlets_moved, if_neg hne]
    · rw [get?_waiting_moved, if_neg hne, Option.none_or]

/-- Every turn is that of another chainlet, so what one leaves is what all of them leave. -/
theorem movedAll_of_mem (reg : Registry)
    (hapart : turns.Pairwise fun turn turn' => turn.1.1.chainId ≠ turn'.1.1.chainId)
    {turn : (Chainlet × String) × Fate} (h : turn ∈ turns) :
    (reg.movedAll turns).chainlets.get? turn.1.1.chainId =
        some (turn.2.record turn.1.1 turn.1.2) ∧
      (reg.movedAll turns).waiting.get? turn.1.1.chainId =
        turn.2.consumer?.or (reg.waiting.get? turn.1.1.chainId) := by
  induction turns generalizing reg with
  | nil => cases h
  | cons first rest ih =>
    rcases List.mem_cons.1 h with rfl | h
    · obtain ⟨hchainlets, hwaiting⟩ := (reg.moved turn.1.1 turn.1.2 turn.2).movedAll_of_ne
        fun other hother => List.rel_of_pairwise_cons hapart hother
      refine ⟨hchainlets.trans ?_, hwaiting.trans ?_⟩
      · rw [get?_chainlets_moved, if_pos rfl]
      · rw [get?_waiting_moved, if_pos rfl]
    · obtain ⟨hchainlets, hwaiting⟩ := ih (reg.moved first.1.1 first.1.2 first.2) hapart.of_cons h
      have hne := (List.rel_of_pairwise_cons hapart h).symm
      refine ⟨hchainlets, hwaiting.trans ?_⟩
      rw [get?_waiting_moved, if_neg hne, Option.none_or]

end Registry

end Chainlets
