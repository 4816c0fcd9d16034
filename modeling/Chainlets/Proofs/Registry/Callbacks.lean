import Chainlets.Proofs.Registry.Moves
import Chainlets.Proofs.Upgrade.Callback

/-!
# What callbacks do to the registry

A callback makes no moves. It carries a step of the handshake out on the record of one chainlet:
the pending upgrade stays, is given up, or is completed. The record stays in order, because a
pending upgrade names a version of the stack of the chainlet. If nothing is settled, the record is
the same as before, and so is the registry.

## Main definitions

* `Registry.Settles` — the record of one chainlet after a step of the handshake.

## Main results

* `Registry.Settles.wellFormed` — **a step of the handshake keeps a registry well-formed.**
* `Callback.perform_settles` — **what a callback does to the registry.**
* `Callback.perform_chainlet` — what it does to one chainlet.
-/

namespace Chainlets

open Handshake

variable {reg reg' : Registry}

/-- A registry that is the same except that a step of the handshake was carried out on the record of
a chainlet. -/
def Registry.Settles (reg reg' : Registry) : Prop :=
  ∃ c news plan t, reg.chainlets.get? c.chainId = some c ∧
    News.transition news c.upgrade? c.version plan = .ok t ∧ reg' = reg.putChainlet (t.apply c)

/-- A record that is written over itself. -/
theorem Registry.putChainlet_self {c : Chainlet} (h : reg.chainlets.get? c.chainId = some c) :
    reg.putChainlet c = reg := by
  have hsame : reg.chainlets.insert c.chainId c = reg.chainlets := by
    refine OrderedMap.ext_get? fun chainId => ?_
    rw [OrderedMap.get?_insert]
    split
    next heq => rw [heq, h]
    next => rfl
  rw [putChainlet, hsame]

/-- A chainlet stays in order when a step of the handshake is carried out on its record. -/
theorem Chainlet.Sound.apply {catalog : Catalog} {c : Chainlet} (h : c.Sound catalog) {news : News}
    {plan : String} {t : Transition} (ht : news.transition c.upgrade? c.version plan = .ok t) :
    (t.apply c).Sound catalog := by
  rcases News.transition_cases ht with ⟨upgrade, hpending, -, rfl⟩ | ⟨⟨reason, rfl⟩, -⟩
  · have hgivenUp : Chainlet.Sound catalog { c with upgrade? := none } :=
      ⟨h.valid, h.registered, h.consumer, fun _ hnone => by cases hnone⟩
    have hcompleted : Chainlet.Sound catalog
        { c with version := upgrade.targetVersion, upgrade? := none } :=
      ⟨h.valid, (h.upgrade upgrade hpending).2.1, h.consumer, fun _ hnone => by cases hnone⟩
    cases news with
    | confirmed => exact hcompleted
    | createAnswered success => cases success <;> assumption
    | createExpired => exact hgivenUp
    | cancelAnswered success => cases success <;> assumption
    | cancelExpired => exact h
  · exact h

/-- **A step of the handshake keeps a registry well-formed.** -/
theorem Registry.Settles.wellFormed (h : reg.Settles reg') (hreg : reg.WellFormed) :
    reg'.WellFormed := by
  obtain ⟨c, news, plan, t, hheld, ht, rfl⟩ := h
  refine hreg.putChainlet (c := c) (by rw [t.chainId_apply, hheld]) (t.consumer?_apply c) ?_
  exact (hreg.chainlets _ _ hheld).2.apply ht

/-- The registry that is shown after a transition was carried out on a record that is held. -/
theorem Registry.ShownBy.written {store : Store} {u : Updates} {c : Chainlet} {t : Transition}
    (h : reg.ShownBy (Overlay.mk store u)) (hheld : reg.chainlets.get? c.chainId = some c)
    (hfits : t.apply c = c ∨ Stored.fits (t.apply c) = true) :
    (reg.putChainlet (t.apply c)).ShownBy (Overlay.mk store (Operation.written c t u)) := by
  have hfits : Stored.fits (t.apply c) = true := by
    rcases hfits with hsame | hfits
    · rw [hsame]
      exact h.chainlets.fits hheld
    · exact hfits
  cases t with
  | stay => rwa [Transition.apply, putChainlet_self hheld]
  | ignore reason => rwa [Transition.apply, putChainlet_self hheld]
  | cancel upgrade reason => exact h.putChainlet hfits
  | complete upgrade => exact h.putChainlet hfits

namespace Callback

variable {ω : Type} {cb : Callback} {parent : Parent ω} {world : ω} {o : Overlay}
  {data : PacketData} {news : News} {c : Chainlet} {t : Transition}

/-- Over a well-formed registry, a callback comes upon the record of the chainlet that it names. -/
theorem Reaches.held (h : cb.Reaches parent world o data news c t) (hreg : reg.WellFormed)
    (hshows : reg.ShownBy o) :
    reg.chainlets.get? data.chainId = some c ∧ c.chainId = data.chainId := by
  have hc : reg.chainlets.get? data.chainId = some c := hshows.chainlet?_eq_some_iff.1 h.found
  exact ⟨hc, (hreg.chainlets _ _ hc).1⟩

/-- **What a callback does to the registry**: nothing, or a step of the handshake on the record of
the chainlet that the packet names. -/
theorem perform_settles (cb : Callback) (hreg : reg.WellFormed) {store : Store}
    (parent : Parent ω) (live : Live ω)
    (hshows : reg.ShownBy (Overlay.mk store live.context.updates)) :
    let after := Controller.perform store parent cb.request live
    ((∃ failure, after.1 = cb.refusal failure) ∧
      reg.ShownBy (Overlay.mk store after.2.context.updates)) ∨
    ∃ data news c t, cb.Reaches parent live.world (Overlay.mk store live.context.updates)
        data news c t ∧
      after.1 = .ok (cb.response t.outcome) ∧
      (reg.putChainlet (t.apply c)).ShownBy (Overlay.mk store after.2.context.updates) := by
  intro after
  rcases cb.perform_cases store parent live with
    ⟨failure, hresult, hcontext⟩ | ⟨data, news, c, t, hreaches, hresult, hfits, hupdates⟩
  · refine .inl ⟨⟨failure, hresult⟩, ?_⟩
    rwa [show after.2.context = live.context from hcontext]
  · obtain ⟨hc, hid⟩ := hreaches.held hreg hshows
    refine .inr ⟨data, news, c, t, hreaches, hresult, ?_⟩
    rw [show after.2.context.updates = _ from hupdates]
    exact hshows.written (by rw [hid, hc]) hfits

/-- The registry after a callback is the same, or settled. -/
theorem perform_eq_or_settles (cb : Callback) (hreg : reg.WellFormed) {store : Store}
    (parent : Parent ω) (live : Live ω)
    (hshows : reg.ShownBy (Overlay.mk store live.context.updates)) :
    ∃ reg', (reg' = reg ∨ reg.Settles reg') ∧ reg'.ShownBy
      (Overlay.mk store (Controller.perform store parent cb.request live).2.context.updates) := by
  rcases cb.perform_settles hreg parent live hshows with
    ⟨-, hshows'⟩ | ⟨data, news, c, t, hreaches, -, hshows'⟩
  · exact ⟨reg, .inl rfl, hshows'⟩
  · obtain ⟨hc, hid⟩ := hreaches.held hreg hshows
    exact ⟨_, .inr ⟨c, news, _, t, by rw [hid, hc], hreaches.moves, rfl⟩, hshows'⟩

/-- What a callback does to a chainlet: nothing, or a step of the handshake on its record, and then
the packet names it. -/
theorem perform_chainlet (cb : Callback) (hreg : reg.WellFormed) {store : Store}
    (parent : Parent ω) (live : Live ω)
    (hshows : reg.ShownBy (Overlay.mk store live.context.updates)) (chainId : String) :
    let before := Overlay.mk store live.context.updates
    let after := Controller.perform store parent cb.request live
    Readable.chainlet? (Overlay.mk store after.2.context.updates) chainId =
        Readable.chainlet? before chainId ∨
      ∃ data news c t, cb.Reaches parent live.world before data news c t ∧
        data.chainId = chainId ∧ after.1 = .ok (cb.response t.outcome) ∧
        Readable.chainlet? (Overlay.mk store after.2.context.updates) chainId =
          .ok (some (t.apply c)) := by
  intro before after
  rcases cb.perform_settles hreg parent live hshows with
    ⟨-, hshows'⟩ | ⟨data, news, c, t, hreaches, hresult, hshows'⟩
  · exact .inl ((hshows'.chainlet?_eq _).trans (hshows.chainlet?_eq _).symm)
  · have hid : (t.apply c).chainId = data.chainId :=
      (t.chainId_apply c).trans (hreaches.held hreg hshows).2
    have hget : (reg.putChainlet (t.apply c)).chainlets.get? chainId =
        if chainId = data.chainId then some (t.apply c) else reg.chainlets.get? chainId := by
      rw [← hid]
      exact OrderedMap.get?_insert ..
    have hread := hshows'.chainlet?_eq chainId
    rw [hget] at hread
    by_cases hnamed : chainId = data.chainId
    · rw [if_pos hnamed] at hread
      exact .inr ⟨data, news, c, t, hreaches, hnamed.symm, hresult, hread⟩
    · rw [if_neg hnamed] at hread
      exact .inl (hread.trans (hshows.chainlet?_eq _).symm)

end Callback

end Chainlets
