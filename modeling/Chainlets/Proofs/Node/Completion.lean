import Chainlets.Proofs.Node.Ascent
import Chainlets.Proofs.Node.Chronicle

/-!
# Completed plans are never replayed

A plan name tells two series, the one that a chainlet leaves and the one that it moves to. When the
upgrade is completed, the chainlet is above the former, and it never comes down again. So no later
upgrade of the chainlet has the plan name of a completed one, and whatever the transport still
delivers under that name finds nothing that it could act on.

## Main definitions

* `Deed.Completes`, `Deed.Carries`, `Deed.Leaves`.
* `Outgrown` — a chainlet is above the series that a plan leads out of.

## Main results

* `Outgrown.not_completes`, `Outgrown.leaves` — a plan that is outgrown does nothing.
* `Node.completed_run` — **in a run, completed plans are never replayed.**
-/

namespace Chainlets

open Handshake

variable {ω : Type}

namespace Deed

/-- The pending upgrade of a chainlet is completed, under its plan name. -/
def Completes (d : Deed ω) (chainId plan : String) : Prop :=
  ∃ c upgrade, Readable.chainlet? d.before chainId = .ok (some c) ∧ c.upgrade? = some upgrade ∧
    Upgrade.planName c.version upgrade.targetVersion = .ok plan ∧
    Readable.chainlet? d.after chainId =
      .ok (some { c with version := upgrade.targetVersion, upgrade? := none })

/-- The transport delivers something under a plan name. -/
def Carries (d : Deed ω) (plan : String) : Prop :=
  ∃ (cb : Callback) (data : PacketData), d.request = cb.request ∧
    PacketData.decode cb.packet.data = .ok data ∧ data.plan = plan

/-- The record of a chainlet is as it was before. -/
def Leaves (d : Deed ω) (chainId : String) : Prop :=
  Readable.chainlet? d.after chainId = Readable.chainlet? d.before chainId

end Deed

/-- A chainlet is above the series that a plan leads out of. -/
def Outgrown (o : Overlay) (chainId plan : String) : Prop :=
  ∃ (c : Chainlet) (s t u : Series), Readable.chainlet? o chainId = .ok (some c) ∧
    s.plan t = plan ∧ u.Has c.version ∧ s.rank < u.rank

namespace Outgrown

variable {d : Deed ω} {chainId plan : String}

/-- No pending upgrade of a chainlet has the name of an outgrown plan. -/
theorem planName_ne {o : Overlay} (h : Outgrown o chainId plan) {c : Chainlet}
    (hc : Readable.chainlet? o chainId = .ok (some c)) (target : String) :
    Upgrade.planName c.version target ≠ .ok plan := by
  obtain ⟨c', s, t, u, hc', hplan, hu, habove⟩ := h
  obtain rfl : c = c' := Option.some.inj (Except.ok.inj (hc.symm.trans hc'))
  intro hname
  obtain ⟨s', t', hs', -, hplan'⟩ := Upgrade.planName_eq_ok_iff.1 hname
  obtain ⟨rfl, -⟩ := Series.plan_injective (hplan'.trans hplan.symm)
  rw [hu.unique hs'] at habove
  exact Nat.lt_irrefl _ habove

theorem not_completes (h : Outgrown d.before chainId plan) : ¬ d.Completes chainId plan := by
  rintro ⟨c, upgrade, hc, -, hname, -⟩
  exact h.planName_ne hc _ hname

/-- **What the transport delivers under an outgrown plan does nothing.** -/
theorem leaves (h : Outgrown d.before chainId plan) (horderly : Orderly d.before)
    (hcarries : d.Carries plan) : d.Leaves chainId := by
  obtain ⟨store, parent, request, live⟩ := d
  obtain ⟨cb, data, rfl, hcontent, rfl⟩ := hcarries
  obtain ⟨reg, hreg, hshows⟩ := horderly
  rcases cb.perform_chainlet hreg parent live hshows chainId with
    hleft | ⟨data', news, c, t, hreaches, rfl, -, hafter⟩
  · exact hleft
  · obtain rfl : data = data' := Except.ok.inj (hcontent.symm.trans hreaches.tells.content)
    have hsame : t.apply c = c := by
      by_contra hne
      obtain ⟨-, upgrade, -, hname | ⟨-, hempty⟩⟩ := (News.apply_ne_iff hreaches.moves).1 hne
      · exact h.planName_ne hreaches.found _ hname
      · obtain ⟨-, s, t, -, -, hplan, -⟩ := h
        exact Series.plan_ne_empty s t (hplan.trans hempty)
    rw [hsame] at hafter
    exact hafter.trans hreaches.found.symm

end Outgrown

/-- A completed plan is outgrown, and stays so. -/
theorem Chronicle.indelible_outgrown : Indelible fun (d : Deed ω) o =>
    ∀ chainId plan, d.Completes chainId plan → Outgrown o chainId plan where
  left d horderly _ := by
    rintro chainId plan ⟨c, upgrade, hc, hpending, hname, hafter⟩
    obtain ⟨reg, hreg, hshows⟩ := horderly
    have hsound := (hreg.chainlets chainId c (hshows.chainlet?_eq_some_iff.1 hc)).2
    obtain ⟨-, -, hbreaking⟩ := hsound.upgrade upgrade hpending
    obtain ⟨s, t, hs, ht, hfollows⟩ := Upgrade.kind_eq_breaking_iff.1 hbreaking
    obtain ⟨s', t', hs', -, hplan⟩ := Upgrade.planName_eq_ok_iff.1 hname
    obtain rfl := hs.unique hs'
    exact ⟨_, s, t', t, hafter, hplan, ht, hfollows.rank_lt⟩
  kept d e horderly himport hmark := by
    intro chainId plan hcompletes
    obtain ⟨c, s, t, u, hc, hplan, hu, habove⟩ := hmark chainId plan hcompletes
    obtain ⟨c', hc', hprecedes⟩ :=
      Controller.perform_precedes himport e.store e.parent e.live horderly chainId c hc
    obtain ⟨v, hv, hle⟩ := hprecedes u hu
    exact ⟨c', s, t, v, hc', hplan, hv, Nat.lt_of_lt_of_le habove hle⟩
  congr d o o' hsame hmark := by
    intro chainId plan hcompletes
    obtain ⟨c, s, t, u, hc, hplan, hu, habove⟩ := hmark chainId plan hcompletes
    refine ⟨c, s, t, u, ?_, hplan, hu, habove⟩
    rw [← hc, Readable.chainlet?, Readable.chainlet?, Readable.read?, Readable.read?, hsame]

/-- **In a run, completed plans are never replayed.** From a well-formed genesis state on, whatever
the host does short of another import, once an upgrade of a chainlet is completed under a plan name,
no upgrade of the chainlet is completed under that name again, and nothing that the transport
delivers under that name changes the record of the chainlet. What was done in a context that was
dropped does not count. -/
theorem Node.completed_run {genesis : Genesis} (hgenesis : genesis.WellFormed) (height : Height)
    (time : Time) (parent : Parent ω) (world : ω) {actions : List (Action ω)}
    (himport : ∀ action ∈ actions, action.isImport = false) :
    let ch := (Chronicle.blank (start.run (begin genesis height time parent world))).run actions
    ch.deeds.Pairwise fun d e => ∀ chainId plan, d.Completes chainId plan →
      ¬ e.Completes chainId plan ∧ (e.Carries plan → e.Leaves chainId) := by
  intro ch
  obtain ⟨hfound, horderly⟩ := Chronicle.pairwise_marked Chronicle.indelible_outgrown
    (inOrder_begin hgenesis height time parent world) himport
  refine hfound.imp_of_mem fun {d e} _ he hmark chainId plan hcompletes => ?_
  have houtgrown : Outgrown e.before chainId plan := hmark chainId plan hcompletes
  exact ⟨houtgrown.not_completes, houtgrown.leaves (horderly e he).1⟩

/-! ### A confirmation that arrives twice -/

namespace Node

/-- The confirmation of the pending upgrade arrives twice. -/
def confirmedTwice : List (Action Host.World) :=
  reopened ++ [.perform (Host.World.parent true) tracked (.receive confirmation),
    .perform (Host.World.parent true) tracked (.receive confirmation)]

/-- The first time that the confirmation arrives. -/
def firstConfirmation : Deed Host.World :=
  ⟨resumed.store, Host.World.parent true, .receive confirmation,
    ⟨.fresh ⟨2⟩ ⟨0⟩, resumed.cache, tracked, []⟩⟩

/-- The second time that the confirmation arrives. -/
def secondConfirmation : Deed Host.World :=
  ⟨resumed.store, Host.World.parent true, .receive confirmation,
    ⟨firstConfirmation.left.context, firstConfirmation.left.cache, tracked, []⟩⟩

theorem deeds_confirmedTwice :
    ((Chronicle.blank (start.run (begin upgrading ⟨1⟩ ⟨0⟩ (Host.World.parent true) tracked))).run
      confirmedTwice).deeds = [firstConfirmation, secondConfirmation] := by
  have hopened : (Chronicle.blank (start.run (begin upgrading ⟨1⟩ ⟨0⟩ (Host.World.parent true)
      tracked))).run reopened = ⟨resumed, [], []⟩ := rfl
  have hcontext : (⟨resumed, [], []⟩ : Chronicle Host.World).node.context? =
      some (.fresh ⟨2⟩ ⟨0⟩) := rfl
  have hfirst : (Chronicle.mk resumed [] []).step
      (.perform (Host.World.parent true) tracked (.receive confirmation)) =
        ⟨⟨resumed.store, firstConfirmation.left.cache, some firstConfirmation.left.context⟩, [],
          [firstConfirmation]⟩ := by
    rw [Chronicle.step_perform hcontext]
    simp only [List.nil_append, firstConfirmation]
  have hcontext : (⟨⟨resumed.store, firstConfirmation.left.cache,
      some firstConfirmation.left.context⟩, [], [firstConfirmation]⟩ :
        Chronicle Host.World).node.context? = some firstConfirmation.left.context := by simp only
  rw [confirmedTwice, Chronicle.run_append, hopened, Chronicle.run, List.foldl_cons, hfirst,
    List.foldl_cons, List.foldl_nil, Chronicle.step_perform hcontext]
  simp only [Chronicle.deeds, List.nil_append, List.singleton_append, secondConfirmation]

theorem completes_firstConfirmation : firstConfirmation.Completes "alpha_1-1" "1-to-2" := by
  have hfound : Readable.chainlet? (Overlay.mk resumed.store ∅) "alpha_1-1" =
      .ok (some waiting) := by decide +kernel
  have hread : Readable.chainlet? (Overlay.mk resumed.store (Operation.written waiting
      (.complete ⟨"2.0.0", ⟨10⟩, "channel-0"⟩) ∅)) "alpha_1-1" =
        .ok (some { waiting with version := "2.0.0", upgrade? := none }) := by
    decide +kernel
  refine ⟨waiting, ⟨"2.0.0", ⟨10⟩, "channel-0"⟩, hfound, rfl, by decide +kernel, ?_⟩
  simp only [Deed.after, Deed.left, firstConfirmation]
  rw [updates_confirmation resumed.cache hfound]
  exact hread

theorem completed_confirmedTwice :
    upgrading.WellFormed ∧ (∀ action ∈ confirmedTwice, action.isImport = false) ∧
      ((Chronicle.blank (start.run (begin upgrading ⟨1⟩ ⟨0⟩ (Host.World.parent true)
        tracked))).run confirmedTwice).deeds = [firstConfirmation, secondConfirmation] ∧
      firstConfirmation.Completes "alpha_1-1" "1-to-2" ∧ secondConfirmation.Carries "1-to-2" ∧
      ¬ secondConfirmation.Completes "alpha_1-1" "1-to-2" ∧
      secondConfirmation.Leaves "alpha_1-1" := by
  have himport : ∀ action ∈ confirmedTwice, action.isImport = false := by
    simp [confirmedTwice, reopened, Action.isImport, Request.isImport]
  have hcarries : secondConfirmation.Carries "1-to-2" :=
    ⟨.received confirmation, .confirm "alpha_1-1" 9 "1-to-2", rfl,
      PacketData.decode_encode (.confirm "alpha_1-1" 9 "1-to-2"), rfl⟩
  have hpairwise := completed_run wellFormed_upgrading ⟨1⟩ ⟨0⟩ (Host.World.parent true) tracked
    himport
  dsimp only at hpairwise
  rw [deeds_confirmedTwice] at hpairwise
  obtain ⟨hnot, hleaves⟩ :=
    List.pairwise_pair.1 hpairwise "alpha_1-1" "1-to-2" completes_firstConfirmation
  exact ⟨wellFormed_upgrading, himport, deeds_confirmedTwice, completes_firstConfirmation, hcarries,
    hnot, hleaves hcarries⟩

end Node

end Chainlets
