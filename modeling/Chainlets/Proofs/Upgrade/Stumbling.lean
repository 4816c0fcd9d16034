import Chainlets.Proofs.Upgrade.Callback

/-!
# Callbacks that cannot make out a plan name

A callback compares the plan name that it carries with that of the pending upgrade. The latter is
made of the version that the chainlet runs and the target version; if one of these is no version,
there is no name, and the callback fails over that. Only a confirmation that leaves the plan name
out compares nothing.

No other part of a callback reads a version. So a callback fails over a version exactly if it gets
as far as the plan name and stumbles there: it brings news of a chainlet that is there, over a
channel that is trusted, and the plan name of the pending upgrade cannot be made out.

## Main definitions

* `Execution.FailsWithin` — every failure is of a certain kind.
* `Callback.Stumbles` — a callback gets as far as the plan name, and no further.

## Main results

* `Handshake.News.transition_eq_badVersion_iff` — when a step of the handshake needs a plan name
  that cannot be made out.
* `Callback.run_eq_badVersion_iff` — **which callbacks fail over a version.**
-/

namespace Chainlets

open Execution Handshake

/-! ### Kinds of failures -/

namespace Execution

variable {ω α β : Type} {P : Failure → Prop}

/-- Whenever an execution fails, the failure is of a certain kind. -/
def FailsWithin (P : Failure → Prop) (x : Execution ω α) : Prop :=
  ∀ s m failure m', x.run s m = (.error failure, m') → P failure

namespace FailsWithin

theorem pure (a : α) : FailsWithin P (Pure.pure a : Execution ω α) :=
  fun _ _ _ _ h => by cases h

theorem ask (question : Parent ω → ω → α) : FailsWithin P (Execution.ask question) :=
  fun _ _ _ _ h => by cases h

theorem context : FailsWithin P (Execution.context : Execution ω Context) :=
  fun _ _ _ _ h => by cases h

theorem fail {failure : Failure} (h : P failure) :
    FailsWithin P (Execution.fail failure : Execution ω α) := by
  rintro s m _ _ ⟨⟩
  exact h

theorem bind {x : Execution ω α} {f : α → Execution ω β} (hx : FailsWithin P x)
    (hf : ∀ a, FailsWithin P (f a)) : FailsWithin P (x >>= f) := by
  intro s m failure m' hrun
  rcases bind_eq_error.1 hrun with hrun | ⟨a, m₁, -, hrun⟩
  · exact hx s m failure m' hrun
  · exact hf a s m₁ failure m' hrun

theorem ofExcept {x : Except Failure α} (h : ∀ failure, x = .error failure → P failure) :
    FailsWithin P (Execution.ofExcept x : Execution ω α) := by
  intro s m failure m' hrun
  exact h failure (Prod.mk.inj hrun).1

theorem mapError {ε : Type} {f : ε → Failure} (hf : ∀ e, P (f e)) (x : Except ε α) :
    FailsWithin P (Execution.ofExcept (x.mapError f) : Execution ω α) := by
  refine ofExcept fun failure hx => ?_
  cases x with
  | ok a => cases hx
  | error e => cases hx; exact hf e

theorem chainlet (hstorage : ∀ fault, P (.storage fault)) (hmissing : ∀ what, P (.notFound what))
    (chainId : String) : FailsWithin P (Execution.chainlet chainId : Execution ω Chainlet) := by
  have hview : FailsWithin P (view : Execution ω Overlay) := fun _ _ _ _ h => by cases h
  have hread : FailsWithin P (chainlet? chainId : Execution ω _) :=
    hview.bind fun o => mapError (f := .storage) hstorage (Readable.chainlet? o chainId)
  refine hread.bind fun c? => ?_
  cases c? with
  | none => exact fail (hmissing _)
  | some c => exact pure c

theorem put [Stored.Format α] (hstorage : ∀ fault, P (.storage fault)) (entry : Entry) (a : α) :
    FailsWithin P (Execution.put entry a : Execution ω Unit) := by
  rw [Execution.put]
  split
  · exact fun _ _ _ _ h => by cases h
  · exact fail (hstorage _)

end FailsWithin

end Execution

/-! ### The handshake -/

namespace Handshake

variable {pending : Option PendingUpgrade} {current plan : String} {fault : VersionError}

theorem expectedPlan_eq_error {upgrade : PendingUpgrade} {refusal : Refusal} :
    expectedPlan current upgrade = .error refusal ↔
      ∃ fault, refusal = .badVersion fault ∧
        Upgrade.planName current upgrade.targetVersion = .error fault := by
  rw [expectedPlan]
  cases Upgrade.planName current upgrade.targetVersion with
  | ok name => simp [Except.mapError]
  | error fault => simp [Except.mapError, eq_comm]

/-- **A step of the handshake cannot be made** if an upgrade is pending whose plan name is needed
and cannot be made out. A confirmation that leaves the plan name out does not need it. -/
theorem News.transition_eq_badVersion_iff {news : News} :
    news.transition pending current plan = .error (.badVersion fault) ↔
      (news = .confirmed → plan ≠ "") ∧ ∃ upgrade, pending = some upgrade ∧
        Upgrade.planName current upgrade.targetVersion = .error fault := by
  have hnamed {upgrade : PendingUpgrade} {x : String → Except Refusal Transition}
      (hx : ∀ expected, x expected ≠ .error (.badVersion fault)) :
      (expectedPlan current upgrade >>= x) = .error (.badVersion fault) ↔
        Upgrade.planName current upgrade.targetVersion = .error fault := by
    cases hplan : expectedPlan current upgrade with
    | ok expected =>
      rw [expectedPlan_eq_ok.1 hplan]
      exact ⟨fun h => absurd h (hx expected), nofun⟩
    | error refusal =>
      obtain ⟨fault', rfl, hfault'⟩ := expectedPlan_eq_error.1 hplan
      rw [hfault']
      constructor
      · rintro ⟨⟩; rfl
      · rintro ⟨⟩; rfl
  cases pending with
  | none =>
    constructor
    · intro h
      cases news <;> cases h
    · rintro ⟨-, upgrade, hnone, -⟩
      cases hnone
  | some upgrade =>
    by_cases hconfirmed : news = .confirmed
    · subst hconfirmed
      rw [transition, Handshake.confirmed]
      by_cases hplan : plan = ""
      · simp [hplan]
      · rw [if_neg hplan, hnamed fun _ h => by cases h]
        simp [hplan]
    · rw [transition_eq_onMatch hconfirmed, onMatch, hnamed fun _ h => by cases h]
      simp [hconfirmed]

end Handshake

/-! ### Callbacks -/

namespace Operation

variable {ω : Type} {fault : VersionError}

/-- The walk fails over what is stored, what is not there, and channels. -/
theorem verifiedChainlet_spares (chainId port channel : String) :
    FailsWithin (· ≠ .badVersion fault)
      (verifiedChainlet chainId port channel : Execution ω Chainlet) := by
  have hlift {α : Type} (x : Except ChannelFault α) :
      FailsWithin (· ≠ .badVersion fault) (liftM x : Execution ω α) :=
    .mapError (f := .channel) (fun _ => nofun) x
  refine (FailsWithin.chainlet (fun _ => nofun) (fun _ => nofun) chainId).bind fun c => ?_
  refine ((FailsWithin.ask _).bind fun client? => ?_).bind fun client => ?_
  · cases client? with
    | none => exact .fail nofun
    | some client => exact .pure client
  · refine (FailsWithin.ask _).bind fun routes => ?_
    refine (hlift _).bind fun _ => ?_
    cases c.upgrade? with
    | none => exact .pure c
    | some upgrade => exact (hlift _).bind fun _ => .pure c

/-- After the walk, a packet that no chainlet was sent is refused. -/
theorem refused_spares (chainId port channel : String) (refusal : BadPacket) :
    FailsWithin (· ≠ .badVersion fault) (do
      let _ ← verifiedChainlet chainId port channel
      let _ ← context
      fail (.badPacket refusal) : Execution ω Outcome) :=
  (verifiedChainlet_spares _ _ _).bind fun _ => FailsWithin.context.bind fun _ => .fail nofun

/-- A confirmation that does not pass its check is malformed. -/
theorem check_spares (msg : Confirmation) :
    FailsWithin (· ≠ .badVersion fault) (liftM msg.check : Execution ω Unit) := by
  have hinvalid (cause : Invalid) : Failure.invalid cause ≠ .badVersion fault := nofun
  refine .ofExcept fun failure h => ?_
  rw [Confirmation.check, requireChainId, requireNonBlank] at h
  cases hid : ChainId.isValid msg.chainId with
  | false =>
    rw [hid] at h
    cases h
    exact hinvalid _
  | true =>
    rw [hid] at h
    cases hblank : Blank.isBlankText msg.channel with
    | false => rw [hblank] at h; cases h
    | true => rw [hblank] at h; cases h; exact hinvalid _

/-- A transition is carried out, or cannot be stored. -/
theorem carryOut_spares (c : Chainlet) (plan : String) (height : Height) (t : Transition) :
    FailsWithin (· ≠ .badVersion fault) (carryOut c plan height t : Execution ω Outcome) := by
  cases t with
  | stay => exact .pure _
  | ignore reason => exact fun _ _ _ _ h => by cases h
  | cancel upgrade reason =>
    exact (FailsWithin.put (fun _ => nofun) _ _).bind fun _ _ _ _ _ h => by cases h
  | complete upgrade =>
    exact (FailsWithin.put (fun _ => nofun) _ _).bind fun _ _ _ _ _ h => by cases h

theorem step_eq_badVersion {α : Type} {s : Surroundings ω} {m m' : Machine ω} {chainId : String}
    {x : Except Refusal α} :
    (step chainId x : Execution ω α).run s m = (.error (.badVersion fault), m') ↔
      x = .error (.badVersion fault) ∧ m = m' := by
  rw [step.eq_def]
  split
  next => simp
  next => simp
  next => simp
  next => simp

end Operation

namespace Callback

/-- A callback gets as far as the plan name of a pending upgrade, and cannot make it out: it brings
news of a chainlet that is there, over a channel that is trusted. -/
structure Stumbles {ω : Type} (cb : Callback) (parent : Parent ω) (world : ω) (o : Overlay)
    (data : PacketData) (news : News) (c : Chainlet) (fault : VersionError) : Prop where
  tells : cb.Tells data news
  found : Readable.chainlet? o data.chainId = .ok (some c)
  trusted : c.TrustedOver parent world cb.port cb.channel
  moves : news.transition c.upgrade? c.version data.plan = .error (.badVersion fault)

variable {ω : Type} {s : Surroundings ω} {m m' : Machine ω} {cb : Callback} {fault : VersionError}

/-- A run that gets as far as the walk and fails over a version has stumbled. -/
theorem stumbles_of_run {data : PacketData} {news : News} (htells : cb.Tells data news)
    {rest : Chainlet → Execution ω Outcome}
    (hrun : (Operation.verifiedChainlet data.chainId cb.port cb.channel >>= rest).run s m =
      (.error (.badVersion fault), m'))
    (hrest : ∀ c, ∃ height, (rest c).run s m = (do
      let transition ← Operation.step c.chainId (news.transition c.upgrade? c.version data.plan)
      Operation.carryOut c data.plan height transition : Execution ω Outcome).run s m) :
    ∃ c, cb.Stumbles s.parent m.world (Overlay.mk s.store m.context.updates) data news c fault := by
  rcases bind_eq_error.1 hrun with hrun | ⟨c, m₁, hverified, hrun⟩
  · exact absurd rfl (Operation.verifiedChainlet_spares _ _ _ _ _ _ _ hrun)
  · obtain ⟨⟨hfound, htrusted⟩, rfl⟩ := Operation.verifiedChainlet_eq_ok.1 hverified
    obtain ⟨height, hlast⟩ := hrest c
    rcases bind_eq_error.1 (hlast.symm.trans hrun) with hrun | ⟨t, m₂, -, hrun⟩
    · exact ⟨c, htells, hfound, htrusted, (Operation.step_eq_badVersion.1 hrun).1⟩
    · exact absurd rfl (Operation.carryOut_spares _ _ _ _ _ _ _ _ hrun)

/-- A callback that fails over a version has stumbled. All that it does otherwise fails, if it does,
over something else. -/
theorem exists_stumbles (hrun : (cb.execution : Execution ω Outcome).run s m =
    (.error (.badVersion fault), m')) :
    ∃ data news c, cb.Stumbles s.parent m.world (Overlay.mk s.store m.context.updates)
      data news c fault := by
  have hpacket {α : Type} (x : Except BadPacket α) :
      FailsWithin (· ≠ .badVersion fault) (liftM x : Execution ω α) :=
    .mapError (f := .badPacket) (fun _ => nofun) x
  cases cb with
  | received packet =>
    rcases bind_eq_error.1 hrun with hrun | ⟨data, m₁, hread, hrun⟩
    · exact absurd rfl (hpacket _ _ _ _ _ hrun)
    obtain ⟨hcontent, rfl⟩ := liftPacket_eq_ok.1 hread
    cases data with
    | create => cases hrun
    | cancel => cases hrun
    | confirm chainId height plan =>
      rcases bind_eq_error.1 hrun with hrun | ⟨_, m₂, hcheck, hrun⟩
      · exact absurd rfl (Operation.check_spares _ _ _ _ _ hrun)
      obtain ⟨hchecked, rfl⟩ := ofExcept_eq_ok.1 hcheck
      obtain ⟨c, hstumbles⟩ := stumbles_of_run (.confirmed hcontent hchecked) hrun
        fun c => ⟨⟨height⟩, rfl⟩
      exact ⟨_, _, c, hstumbles⟩
  | answered packet answer =>
    rcases bind_eq_error.1 hrun with hrun | ⟨data, m₁, hread, hrun⟩
    · exact absurd rfl (hpacket _ _ _ _ _ hrun)
    obtain ⟨hcontent, rfl⟩ := liftPacket_eq_ok.1 hread
    rcases bind_eq_error.1 hrun with hrun | ⟨ack, m₂, hreadAck, hrun⟩
    · exact absurd rfl (hpacket _ _ _ _ _ hrun)
    obtain ⟨hack, rfl⟩ := liftPacket_eq_ok.1 hreadAck
    cases data with
    | create =>
      obtain ⟨c, hstumbles⟩ := stumbles_of_run (.createAnswered hcontent hack) hrun
        fun c => ⟨m.context.height, rfl⟩
      exact ⟨_, _, c, hstumbles⟩
    | cancel =>
      obtain ⟨c, hstumbles⟩ := stumbles_of_run (.cancelAnswered hcontent hack) hrun
        fun c => ⟨m.context.height, rfl⟩
      exact ⟨_, _, c, hstumbles⟩
    | confirm =>
      exact absurd rfl (Operation.refused_spares _ _ _ _ _ _ _ _ hrun)
  | expired packet =>
    rcases bind_eq_error.1 hrun with hrun | ⟨data, m₁, hread, hrun⟩
    · exact absurd rfl (hpacket _ _ _ _ _ hrun)
    obtain ⟨hcontent, rfl⟩ := liftPacket_eq_ok.1 hread
    cases data with
    | create =>
      obtain ⟨c, hstumbles⟩ := stumbles_of_run (.createExpired hcontent) hrun
        fun c => ⟨m.context.height, rfl⟩
      exact ⟨_, _, c, hstumbles⟩
    | cancel =>
      obtain ⟨c, hstumbles⟩ := stumbles_of_run (.cancelExpired hcontent) hrun
        fun c => ⟨m.context.height, rfl⟩
      exact ⟨_, _, c, hstumbles⟩
    | confirm =>
      exact absurd rfl (Operation.refused_spares _ _ _ _ _ _ _ _ hrun)

/-- **A callback fails over a version exactly if it stumbles**: nothing but the plan name of the
pending upgrade is in the way. -/
theorem run_eq_badVersion_iff :
    ((cb.execution : Execution ω Outcome).run s m).1 = .error (.badVersion fault) ↔
      ∃ data news c, cb.Stumbles s.parent m.world (Overlay.mk s.store m.context.updates)
        data news c fault := by
  constructor
  · intro h
    exact exists_stumbles (Prod.ext h rfl : _ = (_, (cb.execution.run s m).2))
  · rintro ⟨data, news, c, htells, hfound, htrusted, hmoves⟩
    obtain ⟨height, hlast⟩ := run_of_tells htells hfound htrusted
    rw [hlast, run_bind_of_error (Operation.step_eq_badVersion.2 ⟨hmoves, rfl⟩)]

end Callback

end Chainlets
