import Chainlets.Host.World
import Chainlets.Proofs.Node.Journal

/-!
# Disabling a version is final

A chainlet comes to a version of its stack in four ways: it is launched on it, it is moved to it by
a maintainer or by the scan, or it confirms an upgrade to it. Each of the first three, and the
request for the upgrade that is confirmed, needs the version to be enabled. A confirmation does not,
but then the chainlet had the upgrade pending. And a disabled version stays so: it is never taken
away, and no version with the same text can be added beside it. So from the moment at which a
version is disabled nobody starts to use it.

The genesis state may be any that passes its own check. All that is needed of the registry is that
everything is stored under its own name.

## Main definitions

* `Chainlet.Uses` — a chainlet runs a version of a stack, or has an upgrade to it pending.
* `Registry.Retires`, `Retires` — a version is disabled, and only some chainlets use it.

## Main results

* `Registry.Act.retires` — no act enables a disabled version or gives it a user.
* `Node.retires_run` — **from the commit on that disables a version, nobody starts to use it.**
-/

namespace Chainlets

open Execution

/-! ### Disabled versions -/

/-- A stack of the catalog has a version, and it is disabled. -/
def Catalog.Disables (catalog : Catalog) (stack version : String) : Prop :=
  ∃ found v, OrderedMap.get? catalog stack = some found ∧ found.version? version = some v ∧
    v.enabled = false

theorem Catalog.Disables.not_enables {catalog : Catalog} {stack version : String}
    (h : Catalog.Disables catalog stack version) : ¬ Catalog.Enables catalog stack version := by
  obtain ⟨found, v, hfound, hv, hdisabled⟩ := h
  rintro ⟨found', v', hfound', henabled⟩
  obtain rfl : found = found' := Option.some.inj (hfound.symm.trans hfound')
  rw [Stack.enabled?, hv] at henabled
  simp [Option.filter, hdisabled] at henabled

namespace Stack

theorem availability_eq_disabled_iff {stack : Stack} {version : String} :
    stack.availability version = .disabled ↔
      ∃ v, stack.version? version = some v ∧ v.enabled = false := by
  rw [availability.eq_def]
  cases hv : stack.version? version with
  | none => simp
  | some v => cases henabled : v.enabled <;> simp [henabled]

/-- A version that a stack has is found as before when another one is added. -/
theorem version?_addVersion_of_some {stack : Stack} {version : String} {w : StackVersion}
    (h : stack.version? version = some w) (v : StackVersion) :
    (stack.addVersion v).version? version = some w := by
  have hfound : stack.versions.find? (fun v => v.version = version) = some w := h
  change (stack.versions ++ [v]).find? (fun v => v.version = version) = some w
  rw [List.find?_append, hfound]
  rfl

/-- A disabled version is still disabled when another one is. -/
theorem version?_disable_of_disabled {stack : Stack} {version : String} {w : StackVersion}
    (h : stack.version? version = some w) (hdisabled : w.enabled = false) (other : String) :
    ∃ w', (stack.disable other).version? version = some w' ∧ w'.enabled = false := by
  rw [version?] at h
  change ∃ w', (disableFirst other stack.versions).find? _ = some w' ∧ _
  generalize stack.versions = l at h
  induction l with
  | nil => cases h
  | cons v l ih =>
    rw [disableFirst]
    by_cases hv : v.version = version
    · rw [List.find?_cons_of_pos (by simpa using hv)] at h
      cases h
      split
      · exact ⟨_, List.find?_cons_of_pos (by simpa using hv), rfl⟩
      · exact ⟨_, List.find?_cons_of_pos (by simpa using hv), hdisabled⟩
    · rw [List.find?_cons_of_neg (by simpa using hv)] at h
      split
      · exact ⟨w, by rw [List.find?_cons_of_neg (by simpa using hv)]; exact h, hdisabled⟩
      · rw [List.find?_cons_of_neg (by simpa using hv)]
        exact ih h

end Stack

/-! ### Users of a version -/

/-- A chainlet runs a version of a stack, or has an upgrade to it pending. -/
def Chainlet.Uses (c : Chainlet) (stack version : String) : Prop :=
  c.stack = stack ∧ (c.version = version ∨
    ∃ upgrade, c.upgrade? = some upgrade ∧ upgrade.targetVersion = version)

namespace Registry

/-- A version of a stack is disabled, and only some chainlets use it. -/
structure Retires (reg : Registry) (stack version : String) (users : String → Prop) : Prop where
  disabled : Catalog.Disables reg.catalog stack version
  used : ∀ chainId c, reg.chainlets.get? chainId = some c → c.Uses stack version → users chainId

variable {reg reg' : Registry} {events : List Event} {stack version : String}
  {users : String → Prop}

namespace Retires

theorem congr (h : reg.Retires stack version users) (hcatalog : reg'.catalog = reg.catalog)
    (hchainlets : reg'.chainlets = reg.chainlets) : reg'.Retires stack version users :=
  ⟨hcatalog ▸ h.disabled, hchainlets ▸ h.used⟩

theorem await? (h : reg.Retires stack version users) (chainId : String)
    (consumer? : Option ConsumerId) : (reg.await? chainId consumer?).Retires stack version users :=
  h.congr (catalog_await? ..) (chainlets_await? ..)

/-- A stack may be written if it has the version as before. -/
theorem putStack (h : reg.Retires stack version users) {other : Stack}
    (hkept : ∀ v, reg.catalog.get? other.name = some v → other.name = stack →
      ∀ w, v.version? version = some w → w.enabled = false →
        ∃ w', other.version? version = some w' ∧ w'.enabled = false) :
    (reg.putStack other).Retires stack version users := by
  refine ⟨?_, h.used⟩
  obtain ⟨found, v, hfound, hv, hdisabled⟩ := h.disabled
  by_cases hname : stack = other.name
  · subst hname
    obtain ⟨w', hw', hdisabled'⟩ := hkept found hfound rfl v hv hdisabled
    exact ⟨other, w', OrderedMap.get?_insert_self .., hw', hdisabled'⟩
  · exact ⟨found, v, (OrderedMap.get?_insert_of_ne _ _ hname).trans hfound, hv, hdisabled⟩

/-- A chainlet may be written if it does not begin to use the version. -/
theorem putChainlet (h : reg.Retires stack version users) {c : Chainlet}
    (hc : c.Uses stack version → users c.chainId) :
    (reg.putChainlet c).Retires stack version users := by
  refine ⟨h.disabled, fun chainId d hd huses => ?_⟩
  rcases OrderedMap.get?_insert_cases hd with ⟨rfl, rfl⟩ | hd
  · exact hc huses
  · exact h.used chainId d hd huses

/-- The version that is enabled is another one. -/
theorem ne_of_enables (h : reg.Retires stack version users) {c : Chainlet} {other : String}
    (henabled : Catalog.Enables reg.catalog c.stack other) (hstack : c.stack = stack) :
    other ≠ version := by
  rintro rfl
  exact (hstack ▸ h.disabled).not_enables henabled

end Retires

/-- **No act enables a disabled version or gives it a user.** -/
theorem Act.retires (h : reg.Act events reg') (hretires : reg.Retires stack version users) :
    reg'.Retires stack version users := by
  cases h with
  | create creator given free single enabled parses =>
    exact hretires.putStack fun v hheld => by rw [free] at hheld; cases hheld
  | extend held enabled parses apart =>
    refine hretires.putStack fun v hheld _ w hw hdisabled => ?_
    cases held.symm.trans hheld
    exact ⟨w, Stack.version?_addVersion_of_some hw _, hdisabled⟩
  | disable held enabled =>
    refine hretires.putStack fun v hheld _ w hw hdisabled => ?_
    cases held.symm.trans hheld
    exact Stack.version?_disable_of_disabled hw hdisabled _
  | @launch c _ feeDenom? given room free sound enabled online idle =>
    refine ((hretires.await? _ _).putChainlet (c := c) ?_).congr rfl rfl
    rintro ⟨hstack, hruns | ⟨upgrade, hpending, -⟩⟩
    · exact absurd hruns (hretires.ne_of_enables enabled hstack)
    · rw [idle] at hpending
      cases hpending
  | @status c status held changes =>
    exact hretires.putChainlet (c := { c with status }) fun huses => hretires.used _ c held huses
  | @upgrade c target consumer? automatic held idle alone enabled other compatible =>
    refine (hretires.await? _ _).putChainlet (c := { c.join? consumer? with version := target }) ?_
    rintro ⟨hstack, hruns | ⟨upgrade, hpending, -⟩⟩
    · exact absurd hruns (hretires.ne_of_enables enabled (by simpa using hstack))
    · rw [Chainlet.upgrade?_join?, idle] at hpending
      cases hpending
  | @schedule c upgrade plan consumer? sequence commitment held idle alone consumer enabled =>
    refine (hretires.await? _ _).putChainlet
      (c := { c.join? consumer? with upgrade? := some upgrade }) ?_
    rintro ⟨hstack, hruns | ⟨upgrade, hpending, htarget⟩⟩
    · have huses : c.Uses stack version :=
        ⟨by simpa using hstack, .inl (by simpa using hruns)⟩
      simpa using hretires.used _ c held huses
    · cases hpending
      exact absurd htarget (hretires.ne_of_enables enabled (by simpa using hstack))
  | requestCancel => exact hretires
  | ignore => exact hretires
  | @giveUp c upgrade reason held pending =>
    refine hretires.putChainlet (c := { c with upgrade? := none }) ?_
    rintro ⟨hstack, hruns | ⟨upgrade, hnone, -⟩⟩
    · exact hretires.used _ c held ⟨hstack, .inl hruns⟩
    · cases hnone
  | @complete c upgrade height held pending =>
    refine hretires.putChainlet
      (c := { c with version := upgrade.targetVersion, upgrade? := none }) ?_
    rintro ⟨hstack, hruns | ⟨upgrade, hnone, -⟩⟩
    · exact hretires.used _ c held ⟨hstack, .inr ⟨upgrade, pending, hruns⟩⟩
    · cases hnone
  | init channel waits => exact hretires.congr rfl rfl

theorem Acts.retires (h : reg.Acts events reg') (hretires : reg.Retires stack version users) :
    reg'.Retires stack version users := by
  induction h with
  | refl => exact hretires
  | tail _ act ih => exact act.retires ih

end Registry

/-! ### States -/

/-- In a state, a version of a stack is disabled, and only some chainlets use it. -/
structure Retires {κ : Type} [Readable κ] (r : κ) (stack version : String)
    (users : String → Prop) : Prop where
  disabled : ∃ found, Readable.stack? r stack = .ok (some found) ∧
    found.availability version = .disabled
  used : ∀ chainId c, Readable.chainlet? r chainId = .ok (some c) → c.Uses stack version →
    users chainId

theorem Registry.ShownBy.retires_iff {κ : Type} [Readable κ] {r : κ} {reg : Registry}
    (h : reg.ShownBy r) {stack version : String} {users : String → Prop} :
    Chainlets.Retires r stack version users ↔ reg.Retires stack version users := by
  have hstack : Readable.stack? r stack = .ok (reg.catalog.get? stack) := h.catalog.read? stack
  constructor
  · rintro ⟨⟨found, hfound, hdisabled⟩, hused⟩
    obtain ⟨v, hv, hoff⟩ := Stack.availability_eq_disabled_iff.1 hdisabled
    refine ⟨⟨found, v, Except.ok.inj (hstack.symm.trans hfound), hv, hoff⟩, ?_⟩
    exact fun chainId c hc => hused chainId c (h.chainlet?_eq_some_iff.2 hc)
  · rintro ⟨⟨found, v, hfound, hv, hoff⟩, hused⟩
    refine ⟨⟨found, hstack.trans (congrArg _ hfound), ?_⟩, ?_⟩
    · exact Stack.availability_eq_disabled_iff.2 ⟨v, hv, hoff⟩
    · exact fun chainId c hc => hused chainId c (h.chainlet?_eq_some_iff.1 hc)

/-- A launch that succeeds is one onto an enabled version. -/
theorem Controller.enables_of_launch {ω : Type} {reg : Registry} {store : Store}
    {parent : Parent ω} {live : Live ω} {msg : Launch} {response : Response}
    (hshows : reg.ShownBy (Overlay.mk store live.context.updates))
    (h : (perform store parent (.handle (.launch msg)) live).1 = .ok response) :
    Catalog.Enables reg.catalog msg.stack msg.version := by
  change (handle store parent (.launch msg) live).1.map (fun _ => Response.done) = _ at h
  obtain ⟨u, hhandled, -⟩ := Except.map_eq_ok.1 h
  rw [handle] at hhandled
  split at hhandled
  next => cases hhandled
  next hcheck =>
    rcases execute_does (Operation.does_launch hcheck ⟨store, parent, live.cache⟩ _ hshows) with
      ⟨_, _, _, -, -, -, -, henabled⟩ | ⟨failure, hfailed, -⟩
    · exact henabled
    · cases hhandled.symm.trans hfailed

/-! ### Nodes -/

namespace Node

/-- On a node, a version of a stack is disabled, only some chainlets use it, and no launch onto it
succeeds. -/
structure Retires (n : Node) (stack version : String) (users : String → Prop) : Prop where
  committed : Chainlets.Retires n.store stack version users
  staged : ∀ context, n.context? = some context →
    Chainlets.Retires (Overlay.mk n.store context.updates) stack version users
  launches : ∀ context, n.context? = some context → ∀ {ω : Type} (parent : Parent ω) (world : ω)
    (msg : Launch), msg.stack = stack → msg.version = version → ∃ failure,
      (Controller.perform n.store parent (.handle (.launch msg))
        ⟨context, n.cache, world, []⟩).1 = .error failure

variable {ω : Type}

/-- What is retired in the committed registry is retired on the node. -/
theorem Traced.retires {imported? : Option Genesis} {journal : List Event} {n : Node}
    {reg : Registry} (h : Traced imported? journal n reg) (hgiven : reg.params?.isSome = true)
    {stack version : String} {users : String → Prop}
    (hretires : reg.Retires stack version users) : n.Retires stack version users where
  committed := h.committed.retires_iff.2 hretires
  staged context hcontext := by
    obtain ⟨reg', hshows, hfollows⟩ := h.staged context hcontext
    exact hshows.retires_iff.2 ((hfollows.acts_of_given hgiven).retires hretires)
  launches context hcontext ω parent world msg hstack hversion := by
    obtain ⟨reg', hshows, hfollows⟩ := h.staged context hcontext
    have hretires' := (hfollows.acts_of_given hgiven).retires hretires
    cases hresult : (Controller.perform n.store parent (.handle (.launch msg))
        ⟨context, n.cache, world, []⟩).1 with
    | error failure => exact ⟨failure, rfl⟩
    | ok response =>
      have henabled := Controller.enables_of_launch hshows hresult
      rw [hstack, hversion] at henabled
      exact absurd henabled hretires'.disabled.not_enables

/-- **From the commit on that disables a version, nobody starts to use it**: whatever is done later
short of a second import, the version stays disabled, no launch onto it succeeds, and whoever uses
it has used it from then on. -/
theorem retires_run {actions more : List (Action ω)}
    (honce : ((actions ++ more).filterMap Action.genesis?).length ≤ 1) {stack version : String}
    {found : Stack} (hfound : Readable.stack? (start.run actions).store stack = .ok (some found))
    (hdisabled : found.availability version = .disabled) :
    ((start.run actions).run more).Retires stack version fun chainId => ∃ c,
      Readable.chainlet? (start.run actions).store chainId = .ok (some c) ∧
        c.Uses stack version := by
  rw [List.filterMap_append, List.length_append] at honce
  obtain ⟨reg, htraced⟩ := @exists_traced_run _ actions (by omega)
  have hretires : reg.Retires stack version fun chainId => ∃ c,
      Readable.chainlet? (start.run actions).store chainId = .ok (some c) ∧ c.Uses stack version :=
    htraced.committed.retires_iff.1
      ⟨⟨found, hfound, hdisabled⟩, fun _ c hc huses => ⟨c, hc, huses⟩⟩
  rcases htraced.follows.eq_or_given with ⟨-, rfl⟩ | ⟨⟨genesis, himported, -⟩, hgiven⟩
  · obtain ⟨_, _, hnone, -⟩ := hretires.disabled
    cases hnone
  · have hnone : more.filterMap Action.genesis? = [] := by
      have hsome := List.length_pos_of_mem (List.mem_of_head? himported)
      exact List.length_eq_zero_iff.1 (by omega)
    obtain ⟨reg', htraced', hacts⟩ := htraced.run_of_given hgiven
      (List.filterMap_eq_nil_iff.1 hnone)
    exact htraced'.retires (by rw [hacts.params?_eq, hgiven]) (hacts.retires hretires)

/-- The genesis state is committed, and then the disabling of the version to which its chainlet has
an upgrade pending. -/
def disabling : List (Action Host.World) :=
  let parent := Host.World.parent true
  begin upgrading ⟨1⟩ ⟨0⟩ parent .initial ++
    [.commit true .listening, .openContext ⟨2⟩ ⟨0⟩,
      .perform parent .initial (.handle (.disableVersion ⟨"manager", "alpha", "2.0.0"⟩)),
      .commit true .listening]

/-- The version is added again, which is refused, and the chainlet is taken offline. -/
def readding : List (Action Host.World) :=
  let parent := Host.World.parent true
  [.openContext ⟨3⟩ ⟨0⟩,
    .perform parent .initial
      (.handle (.addVersion ⟨"manager", "alpha", "d", "2.0.0", "d", true⟩)),
    .perform parent .initial (.setStatus "alpha_1-1" .offline),
    .commit true .listening]

theorem retires_readding : ∃ found,
    ((disabling ++ readding).filterMap Action.genesis?).length ≤ 1 ∧
      Readable.stack? (start.run disabling).store "alpha" = .ok (some found) ∧
      found.availability "2.0.0" = .disabled ∧
      ((start.run disabling).run readding).Retires "alpha" "2.0.0" fun chainId => ∃ c,
        Readable.chainlet? (start.run disabling).store chainId = .ok (some c) ∧
          c.Uses "alpha" "2.0.0" := by
  let found : Stack := ⟨"alpha", "", [],
    [⟨"a", "1.0.0", "a", true, true⟩, ⟨"b", "2.0.0", "b", false, true⟩]⟩
  have honce : ((disabling ++ readding).filterMap Action.genesis?).length ≤ 1 := by decide
  have hfound : Readable.stack? (start.run disabling).store "alpha" = .ok (some found) := by
    decide +kernel
  have hdisabled : found.availability "2.0.0" = .disabled := by decide +kernel
  exact ⟨found, honce, hfound, hdisabled, retires_run honce hfound hdisabled⟩

end Node

end Chainlets
