import Chainlets.Host.World
import Chainlets.Proofs.Node.Journal
import Chainlets.Proofs.Registry.Outline

/-!
# The journal tells the state

Whoever knows the genesis state and reads the journal of a node knows the outline of what is
committed, and is never told anything that does not fit. So nothing is written without an event,
nothing is told that was not done, and no event survives what it tells of: not the failure of an
operation, not the rollback of a move in the scan, and not the dropping of a context.

## Main results

* `Node.replay_run` — **the journal, read over the genesis state, gives what is committed.**
-/

namespace Chainlets

namespace Node

variable {ω : Type}

/-- **The journal, read over the genesis state, gives what is committed**: every event is legal when
its turn comes, and in the end the outline is that of the store. The genesis state is well-formed,
is imported once, and has been committed. -/
theorem replay_run {genesis : Genesis} (hgenesis : genesis.WellFormed)
    {actions : List (Action ω)} (honce : actions.filterMap Action.genesis? = [genesis])
    (hfounded : (start.run actions).Founded) :
    ∃ o, genesis.outline.replay (start.journal actions) = some o ∧
      o.ReadFrom (start.run actions).store := by
  obtain ⟨reg, htraced, hcheck, hacts⟩ := exists_traced_run_of_founded honce hfounded
  refine ⟨reg.outline, ?_, htraced.committed.readFrom⟩
  rw [← (Genesis.check_ok hcheck).outline_registry]
  exact hacts.replay hgenesis.registry

/-- The genesis state is committed. Then a stack is created, and a version that is there already is
refused; the chainlet is taken offline, and the version that it is to be upgraded to is disabled. In
the context after that the chainlet is brought online again, but the context is dropped. -/
def narrated : List (Action Host.World) :=
  let parent := Host.World.parent true
  begin upgrading ⟨1⟩ ⟨0⟩ parent .initial ++
    [.commit true .listening, .openContext ⟨2⟩ ⟨0⟩,
      .perform parent .initial (.handle (.createStack
        ⟨"manager", "beta", "", "c", "1.0.0", "c", [⟨"psaga", default, default⟩], false⟩)),
      .perform parent .initial
        (.handle (.addVersion ⟨"manager", "beta", "d", "1.0.0", "d", false⟩)),
      .perform parent .initial (.setStatus "alpha_1-1" .offline),
      .perform parent .initial (.handle (.disableVersion ⟨"manager", "alpha", "2.0.0"⟩)),
      .commit true .listening, .openContext ⟨3⟩ ⟨0⟩,
      .perform parent .initial (.setStatus "alpha_1-1" .online), .drop]

theorem replay_narrated :
    upgrading.WellFormed ∧ narrated.filterMap Action.genesis? = [upgrading] ∧
      (start.run narrated).Founded ∧
      start.journal narrated =
        [.createStack "beta" "manager", .addStackVersion "beta" "1.0.0" false,
          .stopChainlet "alpha_1-1", .disableStackVersion "alpha" "2.0.0"] ∧
      ∃ o, upgrading.outline.replay (start.journal narrated) = some o ∧
        o.ReadFrom (start.run narrated).store := by
  have honce : narrated.filterMap Action.genesis? = [upgrading] := rfl
  have hfounded : (start.run narrated).Founded := ⟨upgrading.params, by decide +kernel⟩
  exact ⟨wellFormed_upgrading, honce, hfounded, by decide +kernel,
    replay_run wellFormed_upgrading honce hfounded⟩

end Node

end Chainlets
