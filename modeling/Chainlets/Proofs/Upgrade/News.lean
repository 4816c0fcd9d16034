import Chainlets.Operation.Callbacks
import Chainlets.Proofs.Version.Series

/-!
# News about upgrades

The callbacks of the handshake differ in what they do to a pending upgrade that they name, and agree
in everything else: news about another plan, or with nothing pending, are ignored. So there is one
function of the news and the pending upgrade, and one case analysis.

## Main definitions

* `Handshake.News` — what a chainlet, or the transport in its place, says about a plan.
* `Handshake.News.Names` — news carry the plan name of a pending upgrade.
* `Handshake.News.act` — what news do to the pending upgrade that they name.
* `Handshake.News.Misses` — news are about another upgrade, and why.
* `Handshake.News.Nameable` — a pending upgrade has a plan name.
* `Handshake.Transition.apply`, `Handshake.Transition.outcome` — the record, and what is reported.

## Main results

* `Handshake.News.transition_cases` — **news act on what they name, and are ignored otherwise.**
* `Handshake.News.outcome_eq_handled_iff` — which news are acted on.
* `Handshake.News.apply_ne_iff` — which news change the record.
* `Handshake.News.cancel_iff`, `Handshake.News.complete_iff`, `Handshake.News.ignore_iff`,
  `Handshake.News.exists_transition_iff` — **which news lead to which transition.**
-/

namespace Chainlets.Handshake

/-! ### Transitions of records -/

namespace Transition

/-- The record of a chainlet after a transition. -/
def apply (t : Transition) (c : Chainlet) : Chainlet :=
  match t with
  | .stay => c
  | .ignore _ => c
  | .cancel _ _ => { c with upgrade? := none }
  | .complete upgrade => { c with version := upgrade.targetVersion, upgrade? := none }

/-- What is reported of a transition. -/
def outcome : Transition → Outcome
  | .ignore reason => .ignored reason
  | _ => .handled

@[simp]
theorem outcome_eq_ignored_iff {t : Transition} {reason : IgnoreReason} :
    t.outcome = .ignored reason ↔ t = .ignore reason := by
  cases t <;> simp [outcome]

@[simp]
theorem chainId_apply (t : Transition) (c : Chainlet) : (t.apply c).chainId = c.chainId := by
  cases t <;> rfl

@[simp]
theorem consumer?_apply (t : Transition) (c : Chainlet) : (t.apply c).consumer? = c.consumer? := by
  cases t <;> rfl

end Transition

/-! ### News -/

/-- What a chainlet, or the transport in its place, says about a plan. -/
inductive News where
  /-- The chainlet is about to switch. -/
  | confirmed
  /-- The chainlet answered the packet that schedules the upgrade. -/
  | createAnswered (success : Bool)
  /-- The packet that schedules the upgrade timed out. -/
  | createExpired
  /-- The chainlet answered a packet that cancels the upgrade. -/
  | cancelAnswered (success : Bool)
  /-- A packet that cancels the upgrade timed out. -/
  | cancelExpired
deriving DecidableEq

namespace News

/-- The step of the handshake that news lead to. -/
def transition (news : News) (pending : Option PendingUpgrade) (current plan : String) :
    Except Refusal Transition :=
  match news with
  | .confirmed => Handshake.confirmed pending current plan
  | .createAnswered success => createAcknowledged pending current plan success
  | .createExpired => createTimedOut pending current plan
  | .cancelAnswered success => cancelAcknowledged pending current plan success
  | .cancelExpired => cancelTimedOut pending current plan

/-- What news do to the pending upgrade that they name. -/
def act (news : News) (upgrade : PendingUpgrade) : Transition :=
  match news with
  | .confirmed => .complete upgrade
  | .createAnswered success => if success then .stay else .cancel upgrade .rejected
  | .createExpired => .cancel upgrade .timedOut
  | .cancelAnswered success => if success then .cancel upgrade .cancelled else .stay
  | .cancelExpired => .stay

/-- Whether nothing is pending any more after news about a pending upgrade. -/
def settles : News → Bool
  | .confirmed => true
  | .createAnswered success => !success
  | .createExpired => true
  | .cancelAnswered success => success
  | .cancelExpired => false

/-- News carry the plan name of an upgrade of a chainlet on a version. A confirmation may leave the
name out, and means whichever upgrade is pending then. -/
def Names (news : News) (current plan : String) (upgrade : PendingUpgrade) : Prop :=
  Upgrade.planName current upgrade.targetVersion = .ok plan ∨ news = .confirmed ∧ plan = ""

variable {news : News} {pending : Option PendingUpgrade} {current plan : String}
  {upgrade : PendingUpgrade} {t : Transition}

/-! ### What news do -/

theorem expectedPlan_eq_ok {name : String} :
    expectedPlan current upgrade = .ok name ↔
      Upgrade.planName current upgrade.targetVersion = .ok name :=
  Except.mapError_eq_ok

/-- All news but confirmations act on a match of the plan name. -/
theorem transition_eq_onMatch (h : news ≠ .confirmed) :
    news.transition pending current plan = onMatch pending current plan news.act := by
  cases news with
  | confirmed => exact absurd rfl h
  | createAnswered success => rfl
  | createExpired => rfl
  | cancelAnswered success => rfl
  | cancelExpired => rfl

/-- A step that acts on a match acts on an upgrade that is named, or ignores the news. -/
theorem onMatch_cases {act : PendingUpgrade → Transition}
    (h : onMatch pending current plan act = .ok t) :
    (∃ upgrade, pending = some upgrade ∧
      Upgrade.planName current upgrade.targetVersion = .ok plan ∧ t = act upgrade) ∨
    (∃ reason, t = .ignore reason) ∧ ∀ upgrade, pending = some upgrade →
      Upgrade.planName current upgrade.targetVersion ≠ .ok plan := by
  cases pending with
  | none =>
    cases h
    exact .inr ⟨⟨_, rfl⟩, fun upgrade hnone => by cases hnone⟩
  | some upgrade =>
    obtain ⟨expected, hexpected, h⟩ := Except.bind_eq_ok.1 h
    have hname := expectedPlan_eq_ok.1 hexpected
    obtain rfl : _ = t := Except.ok.inj h
    by_cases hplan : plan = expected
    · rw [if_pos hplan, hplan]
      exact .inl ⟨upgrade, rfl, hname, rfl⟩
    · rw [if_neg hplan]
      refine .inr ⟨⟨_, rfl⟩, ?_⟩
      rintro _ ⟨⟩ hother
      exact hplan (Except.ok.inj (hother.symm.trans hname))

theorem confirmed_cases (h : Handshake.confirmed pending current plan = .ok t) :
    (∃ upgrade, pending = some upgrade ∧ News.confirmed.Names current plan upgrade ∧
      t = .complete upgrade) ∨
    (∃ reason, t = .ignore reason) ∧ ∀ upgrade, pending = some upgrade →
      ¬ News.confirmed.Names current plan upgrade := by
  cases pending with
  | none => cases h
  | some upgrade =>
    rw [Handshake.confirmed] at h
    split at h
    next hplan =>
      cases h
      exact .inl ⟨upgrade, rfl, .inr ⟨rfl, hplan⟩, rfl⟩
    next hplan =>
      obtain ⟨expected, hexpected, h⟩ := Except.bind_eq_ok.1 h
      have hname := expectedPlan_eq_ok.1 hexpected
      obtain rfl : _ = t := Except.ok.inj h
      by_cases hexpect : plan = expected
      · rw [if_pos hexpect]
        rw [← hexpect] at hname
        exact .inl ⟨upgrade, rfl, .inl hname, rfl⟩
      · rw [if_neg hexpect]
        refine .inr ⟨⟨_, rfl⟩, ?_⟩
        rintro _ ⟨⟩ (hother | ⟨-, hempty⟩)
        · exact hexpect (Except.ok.inj (hother.symm.trans hname))
        · exact hplan hempty

/-- **News act on the pending upgrade if they name it, and are ignored otherwise.** -/
theorem transition_cases (h : news.transition pending current plan = .ok t) :
    (∃ upgrade, pending = some upgrade ∧ news.Names current plan upgrade ∧ t = news.act upgrade) ∨
    (∃ reason, t = .ignore reason) ∧ ∀ upgrade, pending = some upgrade →
      ¬ news.Names current plan upgrade := by
  by_cases hconfirmed : news = .confirmed
  · subst hconfirmed
    exact confirmed_cases h
  · rw [transition_eq_onMatch hconfirmed] at h
    have hnames (upgrade : PendingUpgrade) : news.Names current plan upgrade ↔
        Upgrade.planName current upgrade.targetVersion = .ok plan := by
      simp [Names, hconfirmed]
    simpa only [hnames] using onMatch_cases h

/-- News that name the pending upgrade are acted on. -/
theorem transition_of_names (h : news.Names current plan upgrade) :
    news.transition (some upgrade) current plan = .ok (news.act upgrade) := by
  by_cases hconfirmed : news = .confirmed
  · subst hconfirmed
    change (if plan = "" then _ else _) = _
    split
    next => rfl
    next hplan =>
      have hname : Upgrade.planName current upgrade.targetVersion = .ok plan :=
        h.resolve_right fun hempty => hplan hempty.2
      rw [expectedPlan_eq_ok.2 hname]
      exact congrArg Except.ok (if_pos rfl)
  · have hname : Upgrade.planName current upgrade.targetVersion = .ok plan :=
      h.resolve_right fun hempty => hconfirmed hempty.1
    rw [transition_eq_onMatch hconfirmed, onMatch, expectedPlan_eq_ok.2 hname]
    exact congrArg Except.ok (if_pos rfl)

/-- News are acted on if they name the pending upgrade. -/
theorem outcome_eq_handled_iff (h : news.transition pending current plan = .ok t) :
    t.outcome = .handled ↔ ∃ upgrade, pending = some upgrade ∧ news.Names current plan upgrade := by
  rcases News.transition_cases h with ⟨upgrade, hpending, hnames, rfl⟩ | ⟨⟨reason, rfl⟩, hothers⟩
  · have hacts : (news.act upgrade).outcome = .handled := by
      cases news with
      | confirmed => rfl
      | createAnswered success => cases success <;> rfl
      | createExpired => rfl
      | cancelAnswered success => cases success <;> rfl
      | cancelExpired => rfl
    simp [hacts, hpending, hnames]
  · constructor
    · intro hhandled
      cases hhandled
    · rintro ⟨upgrade, hpending, hnames⟩
      exact absurd hnames (hothers upgrade hpending)

/-- **What news settle**: the record changes exactly if an upgrade is pending that the news name,
and the news are of a kind that settles it. -/
theorem apply_ne_iff {c : Chainlet} (h : news.transition c.upgrade? c.version plan = .ok t) :
    t.apply c ≠ c ↔ news.settles = true ∧
      ∃ upgrade, c.upgrade? = some upgrade ∧ news.Names c.version plan upgrade := by
  rcases transition_cases h with ⟨upgrade, hpending, hnames, rfl⟩ | ⟨⟨reason, rfl⟩, hothers⟩
  · have hsettled {d : Chainlet} (hd : d.upgrade? = none) : d ≠ c := by
      rintro rfl
      rw [hpending] at hd
      cases hd
    have hnamed : ∃ upgrade, c.upgrade? = some upgrade ∧ news.Names c.version plan upgrade :=
      ⟨upgrade, hpending, hnames⟩
    cases news with
    | confirmed => simp [act, Transition.apply, settles, hnamed, hsettled]
    | createAnswered success =>
      cases success <;> simp [act, Transition.apply, settles, hnamed, hsettled]
    | createExpired => simp [act, Transition.apply, settles, hnamed, hsettled]
    | cancelAnswered success =>
      cases success <;> simp [act, Transition.apply, settles, hnamed, hsettled]
    | cancelExpired => simp [act, Transition.apply, settles]
  · constructor
    · intro hne
      exact absurd rfl hne
    · rintro ⟨-, upgrade, hpending, hnames⟩
      exact absurd hnames (hothers upgrade hpending)

/-! ### Which news lead to which transition -/

/-- News that are about another upgrade than the pending one, and why. -/
inductive Misses (current plan : String) : News → Option PendingUpgrade → IgnoreReason → Prop
  /-- Nothing is pending that could be answered. -/
  | nothingPending {news : News} (answers : news ≠ .confirmed) :
      Misses current plan news none (.nothingPending plan)
  /-- What was answered has another plan name. -/
  | otherPlan {news : News} {upgrade : PendingUpgrade} {name : String}
      (answers : news ≠ .confirmed)
      (named : Upgrade.planName current upgrade.targetVersion = .ok name) (other : plan ≠ name) :
      Misses current plan news (some upgrade) (.otherPlan plan name)
  /-- What was confirmed has another plan name. -/
  | otherConfirmation {upgrade : PendingUpgrade} {name : String}
      (named : Upgrade.planName current upgrade.targetVersion = .ok name) (spelled : plan ≠ "")
      (other : plan ≠ name) :
      Misses current plan .confirmed (some upgrade) (.otherConfirmation plan name)

theorem transition_of_misses {reason : IgnoreReason} (h : Misses current plan news pending reason) :
    news.transition pending current plan = .ok (.ignore reason) := by
  cases h with
  | nothingPending answers => rw [transition_eq_onMatch answers, onMatch]
  | otherPlan answers named other =>
    rw [transition_eq_onMatch answers, onMatch, expectedPlan_eq_ok.2 named]
    exact congrArg Except.ok (if_neg other)
  | otherConfirmation named spelled other =>
    rw [transition, Handshake.confirmed, if_neg spelled, expectedPlan_eq_ok.2 named]
    exact congrArg Except.ok (if_neg other)

/-- If anything is pending, it has a plan name. -/
def Nameable (current : String) (pending : Option PendingUpgrade) : Prop :=
  ∀ upgrade, pending = some upgrade →
    ∃ name, Upgrade.planName current upgrade.targetVersion = .ok name

/-- News name the pending upgrade, or miss it, or confirm what nobody asked for. -/
theorem names_or_misses (hnamed : Nameable current pending) (news : News) (plan : String) :
    (∃ upgrade, pending = some upgrade ∧ news.Names current plan upgrade) ∨
      (∃ reason, Misses current plan news pending reason) ∨
      news = .confirmed ∧ pending = none := by
  by_cases hconfirmed : news = .confirmed
  · cases pending with
    | none => exact .inr (.inr ⟨hconfirmed, rfl⟩)
    | some upgrade =>
      obtain ⟨name, hname⟩ := hnamed upgrade rfl
      by_cases hempty : plan = ""
      · exact .inl ⟨upgrade, rfl, .inr ⟨hconfirmed, hempty⟩⟩
      · by_cases hplan : plan = name
        · exact .inl ⟨upgrade, rfl, .inl (hplan ▸ hname)⟩
        · subst hconfirmed
          exact .inr (.inl ⟨_, .otherConfirmation hname hempty hplan⟩)
  · cases pending with
    | none => exact .inr (.inl ⟨_, .nothingPending hconfirmed⟩)
    | some upgrade =>
      obtain ⟨name, hname⟩ := hnamed upgrade rfl
      by_cases hplan : plan = name
      · exact .inl ⟨upgrade, rfl, .inl (hplan ▸ hname)⟩
      · exact .inr (.inl ⟨_, .otherPlan hconfirmed hname hplan⟩)

/-- **Which news lead to a transition**: all but a confirmation of what nobody asked for. -/
theorem exists_transition_iff (hnamed : Nameable current pending) :
    (∃ t, news.transition pending current plan = .ok t) ↔
      ¬ (news = .confirmed ∧ pending = none) := by
  constructor
  · rintro ⟨t, ht⟩ ⟨rfl, rfl⟩
    cases ht
  · intro hasked
    rcases names_or_misses hnamed news plan with
      ⟨upgrade, rfl, hnames⟩ | ⟨reason, hmisses⟩ | hunasked
    · exact ⟨_, transition_of_names hnames⟩
    · exact ⟨_, transition_of_misses hmisses⟩
    · exact absurd hunasked hasked

theorem act_ne_ignore (news : News) (upgrade : PendingUpgrade) (reason : IgnoreReason) :
    news.act upgrade ≠ .ignore reason := by
  cases news with
  | confirmed => simp [act]
  | createAnswered success => cases success <;> simp [act]
  | createExpired => simp [act]
  | cancelAnswered success => cases success <;> simp [act]
  | cancelExpired => simp [act]

/-- **Which news are ignored**: those that miss the pending upgrade. -/
theorem ignore_iff {reason : IgnoreReason} (hnamed : Nameable current pending) :
    news.transition pending current plan = .ok (.ignore reason) ↔
      Misses current plan news pending reason := by
  refine ⟨fun ht => ?_, transition_of_misses⟩
  rcases names_or_misses hnamed news plan with
    ⟨upgrade, rfl, hnames⟩ | ⟨reason', hmisses⟩ | ⟨rfl, rfl⟩
  · rw [transition_of_names hnames] at ht
    exact absurd (Except.ok.inj ht) (act_ne_ignore news upgrade reason)
  · rw [transition_of_misses hmisses] at ht
    cases ht
    exact hmisses
  · cases ht

/-- **Which news have an upgrade given up**: a refusal or a timeout of its scheduling, and an
agreement to its cancellation, under its plan name. -/
theorem cancel_iff (h : news.transition pending current plan = .ok t) :
    (∃ upgrade reason, t = .cancel upgrade reason) ↔
      news ∈ [.createAnswered false, .createExpired, .cancelAnswered true] ∧
        ∃ upgrade, pending = some upgrade ∧
          Upgrade.planName current upgrade.targetVersion = .ok plan := by
  rcases transition_cases h with ⟨upgrade, rfl, hnames, rfl⟩ | ⟨⟨reason, rfl⟩, hothers⟩
  · cases news with
    | confirmed => simp [act]
    | createAnswered success => cases success <;> simp_all [act, Names]
    | createExpired => simp_all [act, Names]
    | cancelAnswered success => cases success <;> simp_all [act, Names]
    | cancelExpired => simp [act]
  · constructor
    · rintro ⟨_, _, hcancel⟩
      cases hcancel
    · rintro ⟨-, upgrade, hpending, hname⟩
      exact absurd (.inl hname) (hothers upgrade hpending)

/-- **Which news complete an upgrade**: a confirmation under its plan name, or under none. -/
theorem complete_iff {upgrade : PendingUpgrade}
    (h : news.transition pending current plan = .ok t) :
    t = .complete upgrade ↔ news = .confirmed ∧ pending = some upgrade ∧
      (plan = "" ∨ Upgrade.planName current upgrade.targetVersion = .ok plan) := by
  rcases transition_cases h with ⟨upgrade', rfl, hnames, rfl⟩ | ⟨⟨reason, rfl⟩, hothers⟩
  · cases news with
    | confirmed =>
      have hplan : plan = "" ∨ Upgrade.planName current upgrade'.targetVersion = .ok plan := by
        simpa [Names, or_comm] using hnames
      constructor
      · rintro ⟨⟩
        exact ⟨rfl, rfl, hplan⟩
      · rintro ⟨-, ⟨⟩, -⟩
        rfl
    | createAnswered success => cases success <;> simp [act]
    | createExpired => simp [act]
    | cancelAnswered success => cases success <;> simp [act]
    | cancelExpired => simp [act]
  · constructor
    · rintro ⟨⟩
    · rintro ⟨hconfirmed, hpending, hempty | hname⟩
      · exact absurd (.inr ⟨hconfirmed, hempty⟩) (hothers upgrade hpending)
      · exact absurd (.inl hname) (hothers upgrade hpending)

end News

end Chainlets.Handshake
