import Chainlets.Proofs.Registry.Activity
import Chainlets.Proofs.Registry.Scan

/-!
# The beginning of a block acts

The version tree that the scan at the beginning of a block uses has to be that of the stacks. Then
the scan finds every version that the tree offers: the tree has the release, so some enabled version
of the stack has it, and the text of a release is the only one that it has. What the scan plans is
used while chainlets are being moved, but each move touches one chainlet, and each is made for
another one.

## Main definitions

* `Operation.Due` — a move that the scan may make.

## Main results

* `Operation.does_moveAll` — moves that are due are made in acts.
* `Operation.doesAt_beginBlock` — **the beginning of a block acts.**
-/

namespace Chainlets

open Execution

namespace Operation

variable {ω : Type} {reg : Registry}

/-- A move that the scan may make, to an enabled version that the chainlet does not run. -/
structure Due (reg : Registry) (move : Chainlet × String) : Prop where
  movable : Movable move
  other : move.2 ≠ move.1.version
  enabled : Catalog.Enables reg.catalog move.1.stack move.2

/-- What the tree of the stacks offers to a chainlet is due. -/
theorem learns_autoTarget {t : VersionTree} (ht : t.Indexes reg.catalog)
    (hcatalog : Catalog.WellFormed reg.catalog) (c : Chainlet) :
    (autoTarget t c : Execution ω _).Learns reg fun target? =>
      ∀ target, target? = some target → Due reg (c, target) := by
  rw [autoTarget]
  refine Does.ite (fun _ => Learns.pure fun _ h => by cases h) fun htakesPart => ?_
  have hidle : c.upgrade? = none := by
    cases hpending : c.upgrade? with
    | none => rfl
    | some upgrade => simp [hpending] at htakesPart
  cases hlatest : t.latestCompatible c.stack c.version with
  | ok latest =>
    refine Learns.pure fun target htarget => ?_
    split at htarget
    next => cases htarget
    next hother =>
      cases htarget
      exact ⟨⟨hidle, VersionTree.kind_latestCompatible hlatest⟩, hother,
        ht.enables_latestCompatible hcatalog hlatest hother⟩
  | error cause => exact (learns_log _).bind fun _ _ => Learns.pure fun _ h => by cases h

/-- The planned moves are moves of some of the chainlets, in their order, and all of them are
due. -/
theorem learns_autoTargets {t : VersionTree} (ht : t.Indexes reg.catalog)
    (hcatalog : Catalog.WellFormed reg.catalog) (chainlets : List Chainlet) :
    (autoTargets t chainlets : Execution ω _).Learns reg fun planned =>
      (planned.map (·.1)).Sublist chainlets ∧ ∀ move ∈ planned, Due reg move := by
  induction chainlets with
  | nil => exact Learns.pure ⟨List.Sublist.slnil, nofun⟩
  | cons c rest ih =>
    refine (learns_autoTarget ht hcatalog c).bind fun target? htarget? => ?_
    refine ih.bind fun more ⟨hsub, hdue⟩ => ?_
    cases target? with
    | none => exact Learns.pure ⟨hsub.cons c, hdue⟩
    | some target =>
      refine Learns.pure ⟨hsub.cons_cons c, fun move hmove => ?_⟩
      rcases List.mem_cons.1 hmove with rfl | hmove
      · exact htarget? target rfl
      · exact hdue move hmove

/-- A move that is due is made in acts on its chainlet, or not at all. -/
theorem does_moveTo {c : Chainlet} {target : String}
    (hheld : reg.chainlets.get? c.chainId = some c) (hdue : Due reg (c, target)) :
    (moveTo c target : Execution ω Bool).Does reg fun _ events reg' =>
      reg.Acts events reg' ∧ reg'.catalog = reg.catalog ∧
        ∀ chainId, chainId ≠ c.chainId →
          reg'.chainlets.get? chainId = reg.chainlets.get? chainId := by
  obtain ⟨⟨hidle, hcompatible⟩, hother, stack, version, hstack, hversion⟩ := hdue
  refine (learns_stack? c.stack).bind fun stack? hstack? => ?_
  have hfound : (stack?.bind fun stack => stack.enabled? target) = some version := by
    rw [hstack?]
    exact Option.bind_eq_some_iff.2 ⟨stack, hstack, hversion⟩
  rw [hfound]
  have hmove : (do
      let c ← registerForVersion c version
      applyVersion c target true : Execution ω Unit).Does reg fun _ events reg' =>
        reg.Acts events reg' ∧ reg'.catalog = reg.catalog ∧
          ∀ chainId, chainId ≠ c.chainId →
            reg'.chainlets.get? chainId = reg.chainlets.get? chainId := by
    refine (does_registerForVersion c version).bind ?_
    rintro _ _ _ ⟨consumer?, halone, -, rfl, rfl, rfl⟩
    refine (does_applyVersion true hheld hidle halone ⟨stack, version, hstack, hversion⟩ hother
      hcompatible).mono ?_
    rintro _ _ _ ⟨-, rfl, hact⟩
    refine ⟨hact.acts, Registry.catalog_await? .., fun chainId hne => ?_⟩
    refine (OrderedMap.get?_insert_of_ne _ _ ?_).trans ?_
    · exact fun heq => hne (heq.trans (Chainlet.chainId_join? c consumer?))
    · rw [Registry.chainlets_await?]
  refine hmove.atomic.bind fun result events reg' hresult => ?_
  cases result with
  | ok _ => exact .pure (by simpa using hresult)
  | error failure =>
    obtain ⟨rfl, rfl⟩ := hresult
    exact (learns_log _).bind fun _ _ => .pure ⟨.refl, rfl, fun _ _ => rfl⟩

/-- Moves that are due are made one after the other. A move leaves those after it due. -/
theorem does_moveAll {planned : List (Chainlet × String)} (hplanned : Planned reg planned)
    (hdue : ∀ move ∈ planned, Due reg move) :
    (moveAll planned : Execution ω Nat).Does reg fun _ => reg.Acts := by
  induction planned generalizing reg with
  | nil => exact .pure .refl
  | cons move rest ih =>
    refine (does_moveTo (hplanned.held move List.mem_cons_self)
      (hdue move List.mem_cons_self)).bind ?_
    intro _ events reg₁ ⟨hacts, hcatalog, hothers⟩
    have hdue₁ : ∀ other ∈ rest, Due reg₁ other := fun other hother => by
      obtain ⟨hmovable, hne, henabled⟩ := hdue other (List.mem_cons_of_mem _ hother)
      exact ⟨hmovable, hne, hcatalog ▸ henabled⟩
    refine (ih (hplanned.tail hothers) hdue₁).bind fun _ more reg₂ hmore => .pure ?_
    simpa using hacts.trans hmore

variable {s : Surroundings ω} {m : Machine ω}

/-- The scan acts, if the tree that it uses is that of the stacks. -/
theorem doesAt_autoUpgrade (hreg : reg.Filed)
    (hshows : reg.ShownBy (Overlay.mk s.store m.context.updates))
    (htree : ∀ t, ((tree : Execution ω VersionTree).run s m).1 = .ok t → t.Indexes reg.catalog) :
    (autoUpgrade : Execution ω Nat).DoesAt s m reg fun _ => reg.Acts := by
  refine .bind_still learns_view still_view hshows fun o ho => ?_
  refine .bind_still (learns_stored ho.allChainlets) (still_liftStorage _) hshows
    fun chainlets hchainlets => ?_
  subst hchainlets
  refine (doesAt_tree hreg.catalog hshows).bind ?_
  rintro t _ _ ⟨ht, rfl, rfl⟩
  refine (learns_autoTargets (htree t ht) hreg.catalog _).bind fun planned ⟨hsub, hdue⟩ => ?_
  exact does_moveAll (.of_sublist hreg hsub fun move hmove => (hdue move hmove).movable) hdue

theorem doesAt_scan (hreg : reg.Filed)
    (hshows : reg.ShownBy (Overlay.mk s.store m.context.updates))
    (htree : ∀ t, ((tree : Execution ω VersionTree).run s m).1 = .ok t → t.Indexes reg.catalog) :
    (scan : Execution ω Height).DoesAt s m reg fun _ => reg.Acts := by
  refine .bind_still learns_params still_params hshows fun params _ => ?_
  refine .bind_still learns_context still_context hshows fun context _ => ?_
  dsimp only
  split
  · refine (doesAt_autoUpgrade hreg hshows htree).bind fun _ events reg₁ hacts => .pure ?_
    rwa [List.append_nil]
  · exact Does.pure .refl s m hshows

/-- **The beginning of a block acts.** -/
theorem doesAt_beginBlock (hreg : reg.Filed)
    (hshows : reg.ShownBy (Overlay.mk s.store m.context.updates))
    (htree : ∀ t, ((tree : Execution ω VersionTree).run s m).1 = .ok t → t.Indexes reg.catalog) :
    (beginBlock : Execution ω Unit).DoesAt s m reg fun _ => reg.Acts := by
  rw [beginBlock_eq]
  refine (doesAt_scan hreg hshows htree).bind fun height events reg₁ hacts => ?_
  refine does_initConsumers.bind fun _ events' reg₂ hmore => ?_
  refine (learns_context.bind fun _ _ => learns_call _).mono ?_
  rintro _ _ _ ⟨-, rfl, rfl⟩
  rw [List.append_nil]
  exact hacts.trans hmore

end Operation

end Chainlets
