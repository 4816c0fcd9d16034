import Chainlets.Proofs.Launch.Payment
import Chainlets.Proofs.Upgrade.Deadlines

/-!
# Limits

Heights, times and the number of chainlets are 64-bit words. No request makes one of them wrap
around: deadlines stop at the greatest word, and the number of chainlets stays below the greatest
number that the parameters allow, which is a word as well.

## Main definitions

* `RequestUpgrade.SchedulesFrom` — a request schedules an upgrade, and what it reckons from.
* `Launch.Counted`, `Launch.RefusedAt` — what comes of a launch.

## Main results

* `Controller.scheduled_iff` — an upgrade is scheduled if there is something to reckon from.
* `Controller.launch_counted`, `Controller.launch_refused` — a launch is counted, unless the chain
  is full.
* `Controller.nothing_wraps` — **no deadline and no count wraps around.**
-/

namespace Chainlets

open Execution

/-! ### Upgrades -/

/-- A request schedules an upgrade and sends a packet for it, and this is what it reckons from. -/
structure RequestUpgrade.SchedulesFrom {ω : Type} (msg : RequestUpgrade) (store : Store)
    (parent : Parent ω) (live : Live (ω × List Call)) (params : Params) (latest : Height)
    (upgrade : PendingUpgrade) (p : Host.SentPacket) : Prop where
  reckons : msg.ReckonsFrom store parent live params latest
  scheduled : upgrade.ScheduledBy p store live
    (Controller.perform store parent.recorded (.handle (.requestUpgrade msg)) live).2

/-- An event tells of an upgrade that is scheduled. -/
theorem PendingUpgrade.ScheduledBy.notices_ne {ω : Type} {upgrade : PendingUpgrade}
    {p : Host.SentPacket} {store : Store} {live after : Live (ω × List Call)}
    (h : upgrade.ScheduledBy p store live after) :
    Event.notices after.context.events ≠ Event.notices live.context.events := by
  obtain ⟨_, _, _, -, -, -, htold⟩ := h.shown
  simp [htold]

namespace Controller

variable {ω : Type} {store : Store} {parent : Parent ω} {live : Live (ω × List Call)}
  {msg : RequestUpgrade}

/-- An upgrade is only scheduled by a request that is handled. -/
theorem done_of_scheduled {upgrade : PendingUpgrade} {p : Host.SentPacket}
    (h : upgrade.ScheduledBy p store live
      (perform store parent.recorded (.handle (.requestUpgrade msg)) live).2) :
    (perform store parent.recorded (.handle (.requestUpgrade msg)) live).1 = .ok .done := by
  rcases perform_handle_cases parent.recorded (.requestUpgrade msg) live with
    ⟨hcheck, m', hrun⟩ | ⟨-, -, hevents⟩
  · exact congrArg Prod.fst (perform_handle hcheck hrun)
  · exact absurd (congrArg Event.notices hevents) h.notices_ne

/-- An upgrade is scheduled exactly if the request is handled and there is something to reckon its
deadlines from. -/
theorem scheduled_iff :
    let after := perform store parent.recorded (.handle (.requestUpgrade msg)) live
    (∃ upgrade p, PendingUpgrade.ScheduledBy upgrade p store live after.2) ↔
      after.1 = .ok .done ∧ ∃ params latest, msg.ReckonsFrom store parent live params latest := by
  intro after
  constructor
  · rintro ⟨upgrade, p, hscheduled⟩
    have hdone := done_of_scheduled hscheduled
    rcases requestUpgrade_schedules (Prod.ext hdone rfl) with
      ⟨-, hnotices⟩ | ⟨params, latest, _, _, hreckons, -⟩
    · exact absurd hnotices hscheduled.notices_ne
    · exact ⟨hdone, params, latest, hreckons⟩
  · rintro ⟨hdone, params, latest, hreckons⟩
    rcases requestUpgrade_schedules (Prod.ext hdone rfl) with
      ⟨⟨_, _, _, hcompatible⟩, -⟩ | ⟨_, _, upgrade, p, -, hscheduled, -, -⟩
    · obtain ⟨_, _, _, _, hbreaking, -⟩ := hreckons
      cases hcompatible.unique hbreaking
    · exact ⟨upgrade, p, hscheduled⟩

end Controller

namespace RequestUpgrade.SchedulesFrom

variable {ω ω' : Type} {store store' : Store} {parent : Parent ω} {parent' : Parent ω'}
  {live : Live (ω × List Call)} {live' : Live (ω' × List Call)} {msg msg' : RequestUpgrade}
  {params params' : Params} {latest latest' : Height} {upgrade upgrade' : PendingUpgrade}
  {p p' : Host.SentPacket}

/-- The deadlines of an upgrade are sums. -/
theorem sums (h : msg.SchedulesFrom store parent live params latest upgrade p) :
    upgrade.targetHeight = latest.add (Word.add params.minUpgradeHeightDelta msg.heightDelta) ∧
      p.TimedFrom params latest live.context.time := by
  have hdone := Controller.done_of_scheduled h.scheduled
  rcases Controller.requestUpgrade_schedules (Prod.ext hdone rfl) with
    ⟨-, hnotices⟩ | ⟨params', latest', upgrade', p', hreckons, hscheduled, hheight, htimed⟩
  · exact absurd hnotices h.scheduled.notices_ne
  · obtain ⟨rfl, rfl⟩ := h.reckons.unique hreckons
    obtain ⟨rfl, rfl⟩ := h.scheduled.unique hscheduled
    exact ⟨hheight, htimed⟩

theorem timed (h : msg.SchedulesFrom store parent live params latest upgrade p) :
    p.TimedFrom params latest live.context.time := h.sums.2

/-- The height of an upgrade is the exact sum, or the greatest word. -/
theorem toNat_height (h : msg.SchedulesFrom store parent live params latest upgrade p) :
    upgrade.targetHeight.number.toNat = min (latest.number.toNat +
      params.minUpgradeHeightDelta.toNat + msg.heightDelta.toNat) Word.maxNat := by
  rw [h.sums.1, Height.toNat_number_add_add]

/-- An upgrade is not due before the height that it is reckoned from. -/
theorem not_due_before (h : msg.SchedulesFrom store parent live params latest upgrade p) :
    latest.number ≤ upgrade.targetHeight.number := by
  rw [UInt64.le_iff_toNat_le, h.toNat_height]
  have hlatest := Word.toNat_le_maxNat latest.number
  omega

theorem height_mono (h : msg.SchedulesFrom store parent live params latest upgrade p)
    (h' : msg'.SchedulesFrom store' parent' live' params' latest' upgrade' p')
    (hlatest : latest.number ≤ latest'.number)
    (hmin : params.minUpgradeHeightDelta ≤ params'.minUpgradeHeightDelta)
    (hdelta : msg.heightDelta ≤ msg'.heightDelta) :
    upgrade.targetHeight.number ≤ upgrade'.targetHeight.number := by
  rw [UInt64.le_iff_toNat_le] at hlatest hmin hdelta ⊢
  rw [h.toNat_height, h'.toNat_height]
  omega

end RequestUpgrade.SchedulesFrom

/-! ### Launches -/

/-- A launch is counted: there was room for one more chainlet, and now there is one more. -/
def Launch.Counted (o o' : Overlay) : Prop :=
  ∃ params count count', Readable.params o = .ok params ∧ Readable.chainletCount o = .ok count ∧
    Readable.chainletCount o' = .ok count' ∧ count < params.maxChainlets ∧
    count'.toNat = count.toNat + 1

/-- A launch is refused when there are as many chainlets as the parameters allow, and nothing comes
of it. Who may launch is told so, if the message passes its own check. -/
structure Launch.RefusedAt {ω : Type} (msg : Launch) (params : Params) (isAdmin : Bool)
    (live : Live ω) (after : Except Failure Response × Live ω) : Prop where
  failed : ∃ failure, after.1 = .error failure
  told : msg.check = .ok () → msg.AllowedTo isAdmin →
    after.1 = .error (.maxChainletsReached params.maxChainlets)
  updates : after.2.context.updates = live.context.updates
  events : after.2.context.events = live.context.events
  world : after.2.world = live.world

namespace Execution

variable {ω α β : Type}

/-- Whenever an execution succeeds, a given number of chainlets is on record. -/
def Counts (count : UInt64) (x : Execution ω α) : Prop :=
  ∀ s m a m', x.run s m = (.ok a, m') →
    Readable.chainletCount (Overlay.mk s.store m'.context.updates) = .ok count

theorem Counts.bind {count : UInt64} (x : Execution ω α) {f : α → Execution ω β}
    (hf : ∀ a, (f a).Counts count) : (x >>= f).Counts count := by
  intro s m b m' hrun
  obtain ⟨a, m₁, -, hrest⟩ := bind_eq_ok.1 hrun
  exact hf a s m₁ b m' hrest

theorem Counts.ite {count : UInt64} {c : Prop} [Decidable c] {x y : Execution ω α}
    (hx : x.Counts count) (hy : y.Counts count) : (if c then x else y).Counts count := by
  split
  · exact hx
  · exact hy

/-- The number is written, and an event tells of something. -/
theorem counts_put (count : UInt64) (event : Event) :
    (do putChainletCount count; emit event : Execution ω Unit).Counts count := by
  intro s m _ m' hrun
  obtain ⟨_, m₁, hput, hemit⟩ := bind_eq_ok.1 hrun
  obtain ⟨-, rfl⟩ := put_eq_ok.1 hput
  obtain rfl := (congrArg Prod.snd hemit).symm
  change Readable.chainletCount (Overlay.mk s.store
    (m.context.updates.insert Entry.chainletCount.key (Stored.encode count))) = _
  rw [Readable.chainletCount, Registry.ShownBy.read?_of_insert _ _ .chainletCount rfl]
  rfl

end Execution

namespace Operation

variable {ω : Type} {msg : Launch} {s : Surroundings ω} {m m' : Machine ω}

/-- A launch that succeeds is counted. The count was less than another word, so one can be added to
it. -/
theorem launch_counts (h : (launch msg).run s m = (.ok (), m')) :
    Launch.Counted (Overlay.mk s.store m.context.updates)
      (Overlay.mk s.store m'.context.updates) := by
  obtain ⟨params, hparams, h⟩ := still_params.bind_ok h
  obtain ⟨_, -, h⟩ := (still_requireLauncher msg).bind_ok h
  obtain ⟨o, ho, h⟩ := still_view.bind_ok h
  obtain rfl : Overlay.mk s.store m.context.updates = o := Except.ok.inj (congrArg Prod.fst ho)
  obtain ⟨count, hcount, h⟩ := (still_liftStorage _).bind_ok h
  obtain ⟨hroom, h⟩ := guarded_eq_ok.1 h
  obtain ⟨_, -, h⟩ := (still_chainlet? _).bind_ok h
  obtain ⟨-, h⟩ := guarded_eq_ok.1 h
  obtain ⟨_, -, h⟩ := (still_stack _).bind_ok h
  obtain ⟨version, -, h⟩ := (still_enabledVersion _ _ _).bind_ok h
  obtain ⟨_, -, h⟩ := still_context.bind_ok h
  have hwritten : Readable.chainletCount (Overlay.mk s.store m'.context.updates) =
      .ok (count + 1) := by
    -- The new count is written after all else, whether or not there is a fee or a consumer.
    refine Counts.ite (.bind _ fun _ => .ite ?_ ?_) (.bind _ fun _ => .ite ?_ ?_) s m () m' h
    all_goals exact .bind _ fun _ => .bind _ fun _ => counts_put _ _
  have hless : count < params.maxChainlets := UInt64.not_le.1 hroom
  exact ⟨params, count, count + 1, (params_eq_ok.1 hparams).1, (liftStorage_eq_ok.1 hcount).1,
    hwritten, hless, Word.toNat_add_one hless⟩

/-- A launch fails when there are as many chainlets as the parameters allow, and nothing is left of
it. It fails for that reason, unless it may not be asked for in the first place. -/
theorem launch_of_full {params : Params} {count : UInt64}
    (hparams : Readable.params (Overlay.mk s.store m.context.updates) = .ok params)
    (hcount : Readable.chainletCount (Overlay.mk s.store m.context.updates) = .ok count)
    (hfull : params.maxChainlets ≤ count) :
    ∃ failure, (launch msg).run s m = (.error failure, m) ∧
      (msg.AllowedTo (s.parent.isAdmin msg.creator m.world) →
        failure = .maxChainletsReached params.maxChainlets) := by
  rw [launch, run_bind_of_ok (params_eq_ok.2 ⟨hparams, rfl⟩)]
  cases hlauncher : (requireLauncher msg : Execution ω Unit).run s m with
  | mk result m₁ =>
    obtain rfl : m₁ = m := (still_requireLauncher msg).rel hlauncher
    cases result with
    | error failure =>
      refine ⟨failure, run_bind_of_error hlauncher, fun hallowed => ?_⟩
      cases hlauncher.symm.trans (requireLauncher_eq_ok_iff.2 ⟨hallowed, rfl⟩)
    | ok _ =>
      refine ⟨.maxChainletsReached params.maxChainlets, ?_, fun _ => rfl⟩
      rw [run_bind_of_ok hlauncher, run_bind_of_ok (run_view s m₁),
        run_bind_of_ok (liftStorage_eq_ok.2 ⟨hcount, rfl⟩), if_pos hfull, fail_bind]
      rfl

end Operation

namespace Controller

variable {ω : Type} {store : Store} {parent : Parent ω} {msg : Launch} {live : Live ω}

/-- A launch that is handled is counted. -/
theorem launch_counted
    (h : (perform store parent (.handle (.launch msg)) live).1 = .ok .done) :
    Launch.Counted (Overlay.mk store live.context.updates) (Overlay.mk store
      (perform store parent (.handle (.launch msg)) live).2.context.updates) := by
  rcases perform_handle_cases parent (.launch msg) live with
    ⟨hcheck, m', hrun⟩ | ⟨⟨failure, hfailed⟩, -⟩
  · rw [perform_handle hcheck hrun]
    exact Operation.launch_counts hrun
  · cases hfailed.symm.trans h

/-- A launch is refused when there are as many chainlets as the parameters allow. -/
theorem launch_refused {params : Params} {count : UInt64}
    (hparams : Readable.params (Overlay.mk store live.context.updates) = .ok params)
    (hcount : Readable.chainletCount (Overlay.mk store live.context.updates) = .ok count)
    (hfull : params.maxChainlets ≤ count) :
    msg.RefusedAt params (parent.isAdmin msg.creator live.world) live
      (perform store parent (.handle (.launch msg)) live) := by
  rcases perform_message store parent (.launch msg) live with
    ⟨failure, hrejected, hperform⟩ | ⟨-, hperform⟩
  · have hcheck : msg.check ≠ .ok () := fun h => by cases hrejected.symm.trans h
    rw [hperform]
    exact ⟨⟨failure, rfl⟩, fun h => absurd h hcheck, rfl, rfl, rfl⟩
  · obtain ⟨failure, hrun, htold⟩ := @Operation.launch_of_full ω msg
      ⟨store, parent, live.cache⟩ ⟨live.context, live.world, live.log⟩ _ _ hparams hcount hfull
    obtain ⟨hfailed, hupdates, hevents⟩ := execute_of_error hrun
    have hworld := execute_world store parent (Operation.launch msg) live
    rw [hrun] at hworld
    have hafter : (execute store parent (Operation.launch msg) live).1.map
        (fun _ => Response.done) = .error failure := by
      rw [hfailed]
      rfl
    rw [hperform]
    exact ⟨⟨failure, hafter⟩, fun _ hallowed => htold hallowed ▸ hafter, hupdates, hevents, hworld⟩

/-- **No deadline and no count wraps around**, whatever the words are that it is made of. An upgrade
is scheduled exactly if a request is handled that is for a breaking one and has a height to reckon
from. Its height, which is the same on record, in the packet and in the event, and the height and
the time at which its packet times out are the exact sums, or the greatest word if a sum is above
it. So none of them lies before what it is reckoned from, and each grows with everything that it is
reckoned from. Whatever is sent, by any request, times out like that. A launch that is handled adds
one to the number of chainlets, and there was room for one more; when there are as many as the
parameters allow, a launch is refused, and nothing comes of it. -/
theorem nothing_wraps {ω : Type} (store : Store) (parent : Parent ω)
    (live : Live (ω × List Call)) :
    (∀ msg : RequestUpgrade,
      let after := perform store parent.recorded (.handle (.requestUpgrade msg)) live
      ((∃ upgrade p, PendingUpgrade.ScheduledBy upgrade p store live after.2) ↔
        after.1 = .ok .done ∧ ∃ params latest, msg.ReckonsFrom store parent live params latest) ∧
      ∀ params latest upgrade p, msg.SchedulesFrom store parent live params latest upgrade p →
        upgrade.targetHeight.number.toNat = min (latest.number.toNat +
          params.minUpgradeHeightDelta.toNat + msg.heightDelta.toNat) Word.maxNat ∧
        p.TimedFrom params latest live.context.time ∧
        latest.number ≤ upgrade.targetHeight.number ∧
        latest.number ≤ p.timeoutHeight.number ∧
        live.context.time.nanos ≤ p.timeoutTime.nanos ∧
        ∀ {ω' : Type} (store' : Store) (parent' : Parent ω') (live' : Live (ω' × List Call))
          (msg' : RequestUpgrade) params' latest' upgrade' p',
          msg'.SchedulesFrom store' parent' live' params' latest' upgrade' p' →
          (latest.number ≤ latest'.number →
            params.minUpgradeHeightDelta ≤ params'.minUpgradeHeightDelta →
            msg.heightDelta ≤ msg'.heightDelta →
            upgrade.targetHeight.number ≤ upgrade'.targetHeight.number) ∧
          (latest.number ≤ latest'.number →
            params.timeoutHeightDelta ≤ params'.timeoutHeightDelta →
            p.timeoutHeight.number ≤ p'.timeoutHeight.number) ∧
          (live.context.time.nanos ≤ live'.context.time.nanos →
            params.timeoutSecs ≤ params'.timeoutSecs →
            p.timeoutTime.nanos ≤ p'.timeoutTime.nanos)) ∧
    (∀ request, SendsTimely store parent live
      (perform store parent.recorded request live).2) ∧
    ∀ msg : Launch,
      let o := Overlay.mk store live.context.updates
      let after := perform store parent.recorded (.handle (.launch msg)) live
      (after.1 = .ok .done →
        Launch.Counted o (Overlay.mk store after.2.context.updates)) ∧
      ∀ params count, Readable.params o = .ok params → Readable.chainletCount o = .ok count →
        params.maxChainlets ≤ count →
          msg.RefusedAt params (parent.isAdmin msg.creator live.world.1) live after := by
  refine ⟨fun msg => ⟨scheduled_iff, fun params latest upgrade p h => ?_⟩,
    fun request => perform_timed store parent request live,
    fun msg => ⟨launch_counted, fun _ _ hparams hcount hfull =>
      @launch_refused _ store parent.recorded msg live _ _ hparams hcount hfull⟩⟩
  obtain ⟨hheight, htime⟩ := h.timed.not_before
  refine ⟨h.toNat_height, h.timed, h.not_due_before, hheight, htime, ?_⟩
  intro ω' store' parent' live' msg' params' latest' upgrade' p' h'
  exact ⟨h.height_mono h', h.timed.height_mono h'.timed, h.timed.time_mono h'.timed⟩

/-- The upgrade of `crossing`, as late as possible. -/
def crossingLate : RequestUpgrade := { crossing with heightDelta := 18446744073709551615 }

/-- The height of that upgrade would be above the greatest word, so it is the greatest word. -/
theorem nothing_wraps_crossingLate :
    let live : Live (Host.World × List Call) :=
      ⟨dividedMachine.context, .unloaded, (connected, []), []⟩
    ∃ upgrade p, crossingLate.SchedulesFrom ∅ (Host.World.parent true) live divided.params ⟨7⟩
      upgrade p ∧ upgrade.targetHeight.number.toNat = Word.maxNat := by
  intro live
  let target : StackVersion := ⟨"b", "2.0.0", "b", true, true⟩
  have hadmitted : crossingLate.Admitted (Overlay.mk ∅ dividedMachine.context.updates)
      divided.params dividedChainlet target .breaking := { admitted_crossing with }
  have henlists : (Host.World.parent true).recorded.Enlists divided.params live.context.time
      dividedChainlet target live.world (some ⟨"0"⟩) enlisted.2 := .joins rfl rfl enlisted_eq
  have hchannel : (Host.World.parent true).recorded.BoundsChannel crossingLate.channel :=
    Parent.boundsChannel_of_length_le fun _ _ _ => by decide
  obtain ⟨_, _, _, _, _, _, hgrants, -⟩ := schedules_of_accepted
    wellFormed_divided.registry.filed shownBy_divided (by decide +kernel) hchannel
    ⟨divided.params, dividedChainlet, target, some ⟨"0"⟩, enlisted.2, hadmitted, henlists,
      fun _ => ⟨⟨7⟩, "1-to-2", ⟨1⟩, _, reachableOver_enlisted, by decide +kernel,
        Prod.ext (sendPacket_enlisted _ _ _) rfl⟩⟩
  have hreckons : crossingLate.ReckonsFrom ∅ (Host.World.parent true) live divided.params ⟨7⟩ :=
    ⟨dividedChainlet, target, some ⟨"0"⟩, enlisted.2, hadmitted, henlists, reachableOver_enlisted⟩
  obtain ⟨hscheduled, hsums⟩ := (nothing_wraps ∅ (Host.World.parent true) live).1 crossingLate
  obtain ⟨upgrade, p, h⟩ := hscheduled.2 ⟨hgrants.done, divided.params, ⟨7⟩, hreckons⟩
  obtain ⟨hheight, -⟩ := hsums divided.params ⟨7⟩ upgrade p ⟨hreckons, h⟩
  exact ⟨upgrade, p, ⟨hreckons, h⟩, hheight.trans (by decide)⟩

end Controller

end Chainlets
