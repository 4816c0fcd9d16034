import Chainlets.Proofs.Registry.Operations
import Chainlets.Proofs.VersionTree.Compatible

/-!
# What the beginning of a block does to the registry

Automatic upgrades are planned on the records that are there when the scan begins, and made one by
one. So a move writes a record that was read before the moves ahead of it were made. It is still the
stored one: the planned chainlets have different chain ids, and a move touches no record but that of
its own chainlet. A move that fails leaves nothing behind.

## Main definitions

* `Operation.Movable`, `Operation.Planned` — what holds of the moves that are still to be made.

## Main results

* `Operation.moveTo_ensures`, `Operation.moveAll_ensures` — one move, and all of them.
* `Operation.advances_beginBlock` — **the beginning of a block makes moves.**
-/

namespace Chainlets

open Execution

variable {ω : Type} {reg reg' : Registry}

namespace Operation

/-! ### Planning -/

/-- Only chainlets without a pending upgrade are moved, and only within their series. -/
theorem reads_autoTarget (t : VersionTree) (c : Chainlet) :
    (autoTarget t c : Execution ω _).Reads reg fun target? =>
      ∀ target, target? = some target →
        c.upgrade? = none ∧ Upgrade.kind c.version target = .ok .compatible := by
  rw [autoTarget]
  refine Ensures.ite (fun _ => Reads.pure fun _ hsome => by cases hsome) fun htakesPart => ?_
  have hidle : c.upgrade? = none := by
    cases hpending : c.upgrade? with
    | none => rfl
    | some upgrade => simp [hpending] at htakesPart
  cases hlatest : t.latestCompatible c.stack c.version with
  | ok latest =>
    refine Reads.pure fun target htarget => ⟨hidle, ?_⟩
    split at htarget
    next => cases htarget
    next => cases htarget; exact VersionTree.kind_latestCompatible hlatest
  | error cause =>
    refine (Keeps.reads_of_outside (outside_log _) reg).bind fun _ _ => ?_
    exact Reads.pure fun _ hsome => by cases hsome

/-- A chainlet without a pending upgrade, and a version of its series. -/
def Movable (move : Chainlet × String) : Prop :=
  move.1.upgrade? = none ∧ Upgrade.kind move.1.version move.2 = .ok .compatible

/-- The planned moves are moves of some of the chainlets, in their order. -/
theorem reads_autoTargets (t : VersionTree) (chainlets : List Chainlet) :
    (autoTargets t chainlets : Execution ω _).Reads reg fun planned =>
      (planned.map (·.1)).Sublist chainlets ∧ ∀ move ∈ planned, Movable move := by
  induction chainlets with
  | nil => exact Reads.pure ⟨List.Sublist.slnil, fun _ hmem => by cases hmem⟩
  | cons c rest ih =>
    refine (reads_autoTarget t c).bind fun target? htarget? => ?_
    refine ih.bind fun more ⟨hsub, hmovable⟩ => ?_
    cases target? with
    | none => exact Reads.pure ⟨hsub.cons c, hmovable⟩
    | some target =>
      refine Reads.pure ⟨hsub.cons_cons c, fun move hmove => ?_⟩
      rcases List.mem_cons.1 hmove with rfl | hmove
      · exact htarget? target rfl
      · exact hmovable move hmove

/-! ### Moving -/

/-- Moves that can be made: the chainlets are stored as they are, are different ones, have no
upgrade pending, and stay in their series. -/
structure Planned (reg : Registry) (planned : List (Chainlet × String)) : Prop where
  held : ∀ move ∈ planned, reg.chainlets.get? move.1.chainId = some move.1
  movable : ∀ move ∈ planned, Movable move
  apart : planned.Pairwise fun m m' => m.1.chainId ≠ m'.1.chainId

/-- The moves that are left can still be made when only the record of the first chainlet changed. -/
theorem Planned.tail {move : Chainlet × String} {rest : List (Chainlet × String)}
    (h : Planned reg (move :: rest))
    (hothers : ∀ chainId, chainId ≠ move.1.chainId →
      reg'.chainlets.get? chainId = reg.chainlets.get? chainId) : Planned reg' rest where
  held other hother := by
    have hne := List.rel_of_pairwise_cons h.apart hother
    rw [hothers _ hne.symm, h.held other (List.mem_cons_of_mem _ hother)]
  movable other hother := h.movable other (List.mem_cons_of_mem _ hother)
  apart := h.apart.of_cons

/-- What is planned when everything is stored under its own name can be done. -/
theorem Planned.of_sublist (hreg : reg.Filed) {planned : List (Chainlet × String)}
    (hsub : (planned.map (·.1)).Sublist (reg.chainlets.toList.map (·.2)))
    (hmovable : ∀ move ∈ planned, Movable move) : Planned reg planned := by
  have hheld : ∀ c ∈ reg.chainlets.toList.map (·.2),
      reg.chainlets.get? c.chainId = some c := by
    intro c hc
    obtain ⟨e, he, rfl⟩ := List.mem_map.1 hc
    exact hreg.held_chainlet (OrderedMap.get?_eq_some_iff.2 he)
  have hapart : (reg.chainlets.toList.map (·.2)).Pairwise fun c d => c.chainId ≠ d.chainId := by
    rw [List.pairwise_map]
    refine (OrderedMap.distinct_of_ascending reg.chainlets.ascending).imp_of_mem ?_
    intro e e' he he' hne
    rwa [hreg.chainlets e.1 e.2 (OrderedMap.get?_eq_some_iff.2 he),
      hreg.chainlets e'.1 e'.2 (OrderedMap.get?_eq_some_iff.2 he')]
  have hplanned := hapart.sublist hsub
  rw [List.pairwise_map] at hplanned
  exact ⟨fun move hmove => hheld _ (hsub.subset (List.mem_map_of_mem hmove)), hmovable, hplanned⟩

/-- A chainlet that can be moved is moved in moves, and no other record changes. -/
theorem moveTo_ensures {c : Chainlet} {target : String}
    (hc : reg.chainlets.get? c.chainId = some c) (hmovable : Movable (c, target)) :
    (moveTo c target : Execution ω Bool).Ensures reg fun _ reg' => reg.Moves reg' ∧
      ∀ chainId, chainId ≠ c.chainId →
        reg'.chainlets.get? chainId = reg.chainlets.get? chainId := by
  refine (reads_stack? c.stack).bind fun stack? hstack? => ?_
  cases hversion : stack?.bind fun stack => stack.enabled? target with
  | none => exact .fail _
  | some version =>
    obtain ⟨stack, rfl, henabled⟩ := Option.bind_eq_some_iff.1 hversion
    have hregistered : Catalog.Registers reg.catalog c.stack target :=
      .of_enabled? hstack?.symm henabled
    have hmove : (do
        let c ← registerForVersion c version
        applyVersion c target true : Execution ω Unit).Ensures reg fun _ reg' => reg.Moves reg' ∧
          ∀ chainId, chainId ≠ c.chainId →
            reg'.chainlets.get? chainId = reg.chainlets.get? chainId := by
      refine Ensures.bind (registerForVersion_ensures c version) fun c' reg' ⟨hjoined, _⟩ => ?_
      refine (writes_putChainlet _).bind fun _ => .of_unwritten (unwritten_emit _) fun _ => ?_
      have hidle' : c'.upgrade? = none := by rw [hjoined.upgrade?_eq, hmovable.1]
      have hregistered' : Catalog.Registers reg.catalog c'.stack target := by
        rwa [hjoined.stack_eq]
      have hcompatible : Upgrade.kind c'.version target = .ok .compatible := by
        rw [hjoined.version_eq, hmovable.2]
      refine ⟨hjoined.moves hc (.upgrade hidle' hregistered' hcompatible), fun chainId hne => ?_⟩
      rw [← hjoined.chainId_eq] at hne
      rw [← hjoined.chainlets_eq]
      exact OrderedMap.get?_insert_of_ne _ _ hne
    refine Ensures.bind hmove.atomic fun result reg' hresult => ?_
    cases result with
    | ok _ => exact .pure hresult
    | error failure =>
      refine .of_unwritten ((unwritten_of_outside (outside_log _)).bind fun _ => Keeps.pure _) ?_
      exact fun _ => hresult ▸ ⟨.refl reg', fun _ _ => rfl⟩

/-- Planned moves are made. -/
theorem moveAll_ensures {planned : List (Chainlet × String)} (hplanned : Planned reg planned) :
    (moveAll planned : Execution ω Nat).Ensures reg fun _ => reg.Moves := by
  induction planned generalizing reg with
  | nil => exact .pure (.refl reg)
  | cons move rest ih =>
    have hmove : (moveTo move.1 move.2 : Execution ω Bool).Ensures reg _ :=
      moveTo_ensures (hplanned.held move List.mem_cons_self)
        (hplanned.movable move List.mem_cons_self)
    refine Ensures.bind hmove fun moved reg₁ ⟨hmoves, hothers⟩ => ?_
    refine Ensures.bind (ih (hplanned.tail hothers)) fun more reg₂ hmore => ?_
    exact .pure (hmoves.trans hmore)

theorem advances_autoUpgrade : (autoUpgrade : Execution ω Nat).Advances := by
  intro reg hreg
  refine reads_view.bind fun o ho => (reads_liftStorage _).bind fun chainlets hchainlets => ?_
  have hall : chainlets = reg.chainlets.toList.map (·.2) :=
    Except.ok.inj (hchainlets.symm.trans ho.allChainlets)
  refine (Keeps.reads unwritten_tree reg).bind fun t _ => ?_
  refine (reads_autoTargets t chainlets).bind fun planned ⟨hsub, hmovable⟩ => ?_
  exact moveAll_ensures (.of_sublist hreg.filed (hall ▸ hsub) hmovable)

theorem advances_scan : (scan : Execution ω Height).Advances := by
  refine Advances.bind (.of_unwritten still_params.of_still) fun params => ?_
  refine Advances.bind (.of_unwritten still_context.of_still) fun context => ?_
  intro reg hreg
  refine Ensures.ite (fun _ => ?_) fun _ => .pure (Registry.Moves.refl reg)
  exact advances_autoUpgrade.bind (fun _ => .of_unwritten (Keeps.pure _)) reg hreg

/-- **The beginning of a block makes moves.** -/
theorem advances_beginBlock : (beginBlock : Execution ω Unit).Advances := by
  rw [beginBlock_eq]
  refine advances_scan.bind fun height => advances_initConsumers.bind fun _ => ?_
  exact .of_unwritten (unwritten_of_outside (outside_keepHouse height))

end Operation

end Chainlets
