import Chainlets.Host.World
import Chainlets.Proofs.Node.Journal

/-!
# No corruption is reachable

A failure of integrity stops the host, and a stored value that is missing or cannot be read leaves
it with nothing to go on. Both are about the state and not about what is asked for. On a node that
keeps to the rules neither can be met once a genesis state has been committed, whatever is asked for
and whatever the parent chain answers: a traced state shows a registry, so all that is stored can be
read, and the version tree is that of the stacks.

The rules are that contexts are opened one at a time, that the state changes by operations of the
controller only, and that no second genesis state is imported. They are what a `Node` can do, and
the last is a hypothesis.

## Main definitions

* `Node.Sound` — no operation can meet a corruption.

## Main results

* `Failure.isCorruption_eq_false_iff` — what a failure that is no corruption can be.
* `Node.sound_run` — **once a genesis state has been committed, no operation meets a corruption.**
-/

namespace Chainlets

/-- A failure that is no corruption is not one of integrity, and if it is one of the store, then a
value was too long to be written. -/
theorem Failure.isCorruption_eq_false_iff {failure : Failure} :
    failure.isCorruption = false ↔ failure.category ≠ .integrity ∧
      ∀ fault, failure = .storage fault → ∃ entry, fault = .unencodable entry := by
  cases failure with
  | treeOutOfSync => simp [isCorruption, category]
  | storage fault => cases fault <;> simp [isCorruption, category]
  | _ => simp [isCorruption, category]

namespace Node

/-- No operation on a node can meet a corruption. -/
structure Sound (n : Node) : Prop where
  /-- Nothing that is asked for in the open context fails over the integrity of the state, nor over
  a value that is missing or cannot be read. -/
  operations : ∀ context, n.context? = some context → ∀ {ω : Type} (parent : Parent ω) (world : ω)
    (request : Request), request.isImport = false → ∀ failure,
      Controller.FailsOver n.store parent request ⟨context, n.cache, world, []⟩ failure →
        failure.category ≠ .integrity ∧
          ∀ fault, failure = .storage fault → ∃ entry, fault = .unencodable entry
  /-- The version that the tree of the open context offers to a chainlet is one that the stack of
  the chainlet has enabled. -/
  scan : ∀ context, n.context? = some context → ∀ {ω : Type} (parent : Parent ω) (world : ω) t,
    (Execution.tree.run ⟨n.store, parent, n.cache⟩ ⟨context, world, []⟩).1 = .ok t →
      ∀ chainId c target,
        Readable.chainlet? (Overlay.mk n.store context.updates) chainId = .ok (some c) →
        t.latestCompatible c.stack c.version = .ok target → target ≠ c.version →
        ∃ stack v, Readable.stack? (Overlay.mk n.store context.updates) c.stack = .ok (some stack) ∧
          stack.enabled? target = some v
  /-- The question for the newest compatible version does not fail over such a thing either. -/
  answers : ∀ stack current failure,
    (Controller.latestCompatible n.store stack current n.cache).1 = .error failure →
      failure.category ≠ .integrity ∧
        ∀ fault, failure = .storage fault → ∃ entry, fault = .unencodable entry

variable {ω : Type}

/-- A traced node is sound once a genesis state has been committed. -/
theorem Traced.sound {imported? : Option Genesis} {journal : List Event} {n : Node}
    {reg : Registry} (h : Traced imported? journal n reg) (hfounded : n.Founded) : n.Sound where
  operations context hcontext ω parent world request himport failure hfails := by
    obtain ⟨reg', hshows, hfollows⟩ := h.staged context hcontext
    have hgiven := (h.of_founded hfounded).2
    have hgiven' : reg'.params?.isSome = true := by
      rw [(hfollows.acts_of_given hgiven).params?_eq, hgiven]
    exact Failure.isCorruption_eq_false_iff.1
      ((h.acted hcontext hshows hfollows himport parent world).sound failure hfails hgiven')
  scan context hcontext ω parent world t ht chainId c target hc hlatest hother := by
    obtain ⟨reg', hshows, hfollows⟩ := h.staged context hcontext
    have hcatalog : Catalog.WellFormed reg'.catalog := (hfollows.filed h.filed).catalog
    obtain ⟨t', hrebuilt, hnext⟩ := h.steady.coherent.next context hcontext
    rw [hnext parent world []] at ht
    cases ht
    have hindexes := (VersionTree.rebuild_eq_ok_iff hshows.catalog hcatalog).1 hrebuilt
    obtain ⟨stack, v, hstack, hv⟩ := hindexes.enables_latestCompatible hcatalog hlatest hother
    exact ⟨stack, v, by rw [← hstack]; exact hshows.catalog.read? c.stack, hv⟩
  answers stack current failure hfails := by
    obtain ⟨t, -, hanswer⟩ := h.steady.coherent.answers
    rw [hanswer] at hfails
    cases hresult : t.latestCompatible stack current with
    | ok latest => rw [hresult] at hfails; cases hfails
    | error cause =>
      rw [hresult] at hfails
      cases hfails
      exact Failure.isCorruption_eq_false_iff.1 rfl

/-- **Once a genesis state has been committed, no operation meets a corruption**, in any run without
a second import. -/
theorem sound_run {actions : List (Action ω)}
    (honce : (actions.filterMap Action.genesis?).length ≤ 1)
    (hfounded : (start.run actions).Founded) : (start.run actions).Sound := by
  obtain ⟨reg, htraced⟩ := exists_traced_run honce
  exact htraced.sound hfounded

/-- A genesis state with a chainlet that takes part in automatic upgrades, which are made at every
block, and a newer version in its series. -/
def offering : Genesis where
  params := { automaticUpgradeInterval := 1 }
  catalog := [⟨"alpha", "", [],
    [⟨"a", "1.0.0", "a", true, false⟩, ⟨"b", "1.1.0", "b", true, false⟩]⟩]
  chainlets := [
    { chainId := "alpha_1-1", name := "first", launcher := "launcher", maintainers := ["launcher"]
      stack := "alpha", version := "1.0.0", status := .online, autoUpgrade := true
      isConsumer := false, consumer? := none, spawnTime := ⟨0⟩, isService := false
      upgrade? := none }]

/-- The genesis state is committed, and a block begins. -/
def scanned : List (Action Host.World) :=
  let parent := Host.World.parent true
  begin offering ⟨1⟩ ⟨0⟩ parent .initial ++
    [.commit true .listening, .openContext ⟨2⟩ ⟨0⟩, .perform parent .initial .beginBlock]

theorem sound_scanned :
    let n := start.run scanned
    (scanned.filterMap Action.genesis?).length ≤ 1 ∧ n.Founded ∧ n.Sound ∧
      n.context?.map (·.events) = some [.upgradeChainlet "alpha_1-1" "1.0.0" "1.1.0" true] := by
  have honce : (scanned.filterMap Action.genesis?).length ≤ 1 := by decide
  have hfounded : (start.run scanned).Founded := ⟨offering.params, by decide +kernel⟩
  exact ⟨honce, hfounded, sound_run honce hfounded, by decide +kernel⟩

end Node

end Chainlets
