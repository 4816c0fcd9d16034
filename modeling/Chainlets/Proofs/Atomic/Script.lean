import Chainlets.Proofs.Coherence.Effect

/-!
# Scripts

A script is what a host may do in an atomic section of its own: requests to the controller, one
after the other, and further sections. What it does next may depend on how the last request or
section ended, and in the end it succeeds or fails. A section that fails is undone.

Whatever a script does, two things about the staged tree only go one way. The count of changes never
goes down, since a rollback keeps the count of the part that failed. And a tree that was dropped
stays detached.

## Main definitions

* `Script`, with `Script.run` and `Script.atomic`.
* `Script.Imports` — the script may ask to write a genesis state.
* `Context.Grows` — what only goes one way.

## Main results

* `Script.run_induction` — every script only goes that way, and keeps what requests and rollbacks
  keep.
* `Script.run_accounted` — the flags of the staged tree stay right.
-/

namespace Chainlets

/-- What a host may do in an atomic section. -/
inductive Script (ω : Type) where
  /-- Succeed or fail. -/
  | finish (succeeds : Bool)
  /-- Do what is asked for, with a parent chain in some state, and go on. -/
  | perform (parent : Parent ω) (world : ω) (request : Request)
      (next : Except Failure Response → Script ω)
  /-- Run a section, and go on. -/
  | attempt (inner : Script ω) (next : Bool → Script ω)

namespace Script

variable {ω : Type}

/-- Undo what was done since a checkpoint if it failed. -/
def settle (checkpoint : Context) : Bool × Live ω → Bool × Live ω
  | (true, live) => (true, live)
  | (false, live) => (false, { live with context := checkpoint.rollback live.context })

/-- Run a script. Whether it succeeded is returned. -/
def run (store : Store) : Script ω → Live ω → Bool × Live ω
  | .finish succeeds, live => (succeeds, live)
  | .perform parent world request next, live =>
    let (result, live) := Controller.perform store parent request { live with world }
    (next result).run store live
  | .attempt inner next, live =>
    let (succeeds, live) := settle live.context (inner.run store live)
    (next succeeds).run store live

/-- Run a script as an atomic section. -/
def atomic (store : Store) (script : Script ω) (live : Live ω) : Bool × Live ω :=
  settle live.context (script.run store live)

/-- The script may ask to write a genesis state. -/
def Imports : Script ω → Prop
  | .finish _ => False
  | .perform _ _ request next => request.isImport = true ∨ ∃ result, (next result).Imports
  | .attempt inner next => inner.Imports ∨ ∃ succeeds, (next succeeds).Imports

end Script

/-! ### What only goes one way -/

/-- The count of changes does not go down, and a tree that is not detached was not dropped. -/
structure Context.Grows (c c' : Context) : Prop where
  changes_le : c.tree.changes ≤ c'.tree.changes
  attached : c'.tree.detached = false → c.tree.detached = false ∧
    (c'.tree.tree? = none → c.tree.tree? = none)

namespace Context

variable {c c' c'' : Context}

theorem Grows.refl (c : Context) : c.Grows c := ⟨Nat.le_refl _, fun h => ⟨h, id⟩⟩

theorem Grows.trans (h : c.Grows c') (h' : c'.Grows c'') : c.Grows c'' where
  changes_le := Nat.le_trans h.changes_le h'.changes_le
  attached hdetached := by
    obtain ⟨hdetached', hnone'⟩ := h'.attached hdetached
    obtain ⟨hdetached'', hnone⟩ := h.attached hdetached'
    exact ⟨hdetached'', hnone ∘ hnone'⟩

/-- A rollback keeps the tree of the part that failed, or drops it. -/
theorem rollback_cases (c c' : Context) :
    (c'.tree.changes = c.tree.changes ∧ (c.rollback c').tree = c'.tree) ∨
      (c'.tree.changes ≠ c.tree.changes ∧ (c.rollback c').tree = c'.tree.discard) := by
  rw [Context.rollback]
  by_cases hchanges : c'.tree.changes = c.tree.changes
  · exact .inl ⟨hchanges, if_pos hchanges⟩
  · exact .inr ⟨hchanges, if_neg hchanges⟩

theorem Grows.rollback (h : c.Grows c') : c.Grows (c.rollback c') := by
  rcases rollback_cases c c' with ⟨-, htree⟩ | ⟨-, htree⟩
  · exact ⟨by rw [htree]; exact h.changes_le, by rw [htree]; exact h.attached⟩
  · refine ⟨by rw [htree]; exact h.changes_le, fun hdetached => ?_⟩
    rw [htree] at hdetached
    cases hdetached

/-- The flags stay right when a part is rolled back. -/
theorem Accounted.rollback {cache cache' : TreeCache} (hc : c.Accounted cache) (h : c.Grows c')
    (hc' : c'.Accounted cache') : (c.rollback c').Accounted cache' := by
  rcases rollback_cases c c' with ⟨hchanges, htree⟩ | ⟨-, htree⟩
  · refine ⟨fun hdetached hzero => ?_, ?_, ?_⟩
    · rw [htree] at hdetached hzero
      exact hc.untouched (h.attached hdetached).1 (hchanges ▸ hzero)
    · rw [htree]
      exact hc'.unloaded
    · rw [htree]
      exact hc'.copied
  · exact .of_dropped (by rw [htree]; rfl) (by rw [htree]; rfl)

end Context

variable {store : Store} {imports : Bool} {c c' : Context} {cache cache' : TreeCache}

theorem Effect.grows (h : Effect imports store c cache c' cache') : c.Grows c' := by
  cases h with
  | quiet same loads =>
    refine ⟨Nat.le_of_eq loads.changes_eq.symm, fun hdetached => ⟨?_, fun hnone => ?_⟩⟩
    · rw [← loads.detached_eq]
      exact hdetached
    · rcases loads with heq | ⟨hnone', -⟩
      · rw [← heq]
        exact hnone
      · exact hnone'
  | dropped changes same le tree invalidated =>
    refine ⟨by rw [tree]; exact le, fun hdetached => ?_⟩
    rw [tree] at hdetached
    cases hdetached
  | imported allowed stocking tree =>
    refine ⟨by rw [tree]; exact Nat.le_refl _, fun hdetached => ?_⟩
    rw [tree] at hdetached
    cases hdetached
  | mirrored stocking loads held tree follows =>
    have hchanges : c'.tree.changes = c.tree.changes + 1 := by
      rw [tree, ← loads.changes_eq]
      rfl
    refine ⟨by omega, fun hdetached => ⟨?_, fun hnone => ?_⟩⟩
    · rw [← loads.detached_eq]
      rw [tree] at hdetached
      exact hdetached
    · rw [tree] at hnone
      cases hnone

namespace Script

variable {ω : Type}

/-- **What every request does to the context, every script does**, if it is kept by rollbacks. -/
theorem run_induction {P : Context → TreeCache → Prop} {allowed : Prop}
    (hperform : ∀ {c c' cache cache' imports}, Effect imports store c cache c' cache' →
      (imports = true → allowed) → P c cache → P c' cache')
    (hrollback : ∀ {c c' cache cache'}, P c cache → c.Grows c' → P c' cache' →
      P (c.rollback c') cache')
    (script : Script ω) (hallowed : script.Imports → allowed) (live : Live ω)
    (h : P live.context live.cache) :
    live.context.Grows (script.run store live).2.context ∧
      P (script.run store live).2.context (script.run store live).2.cache := by
  induction script generalizing live with
  | finish succeeds => exact ⟨.refl _, h⟩
  | perform parent world request next ih =>
    have heffect := Controller.perform_effect store parent request { live with world }
    have hnext := ih (Controller.perform store parent request { live with world }).1
      (fun himports => hallowed (.inr ⟨_, himports⟩))
      (Controller.perform store parent request { live with world }).2
      (hperform heffect (fun himport => hallowed (.inl himport)) h)
    exact ⟨heffect.grows.trans hnext.1, hnext.2⟩
  | attempt inner next ihinner ihnext =>
    obtain ⟨hgrows, hinner⟩ := ihinner (fun himports => hallowed (.inl himports)) live h
    have hsettled : live.context.Grows (settle live.context (inner.run store live)).2.context ∧
        P (settle live.context (inner.run store live)).2.context
          (settle live.context (inner.run store live)).2.cache := by
      rw [settle.eq_def]
      split
      next heq => rw [heq] at hgrows hinner; exact ⟨hgrows, hinner⟩
      next heq => rw [heq] at hgrows hinner; exact ⟨hgrows.rollback, hrollback h hgrows hinner⟩
    have hnext := ihnext (settle live.context (inner.run store live)).1
      (fun himports => hallowed (.inr ⟨_, himports⟩))
      (settle live.context (inner.run store live)).2 hsettled.2
    exact ⟨hsettled.1.trans hnext.1, hnext.2⟩

theorem run_accounted (store : Store) (script : Script ω) (live : Live ω)
    (h : live.context.Accounted live.cache) :
    (script.run store live).2.context.Accounted (script.run store live).2.cache :=
  (run_induction (P := fun c cache => c.Accounted cache)
    (fun heffect (_ : _ → True) hc => heffect.accounted hc)
    (fun hc hgrows hc' => hc.rollback hgrows hc') script (fun _ => trivial) live h).2

end Script

end Chainlets
