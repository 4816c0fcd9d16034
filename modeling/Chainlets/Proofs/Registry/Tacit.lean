import Chainlets.Proofs.Execution.Allowed

/-!
# Operations that initialize no consumer

Consumers are initialized at the beginning of a block and nowhere else. What is done elsewhere
leaves events, in the order in which it is done, but none that tells of an initialization. The same
holds of what is done at the beginning of a block before consumers are looked at.

The frame is about the events alone, so it holds whether an execution succeeds or fails, and of a
part whose events are discarded.

## Main definitions

* `Event.AddsNoInit`, `Frame.tacit` — events are added, and none of them tells of an initialization.

## Main results

* `Frame.allowsStacks_tacit`, `Frame.allowsPackets_tacit` — **the steps that leave no event of an
  initialization**, which are all but those of initializing a consumer.
-/

namespace Chainlets

open Execution

/-- Events are added to others, and none of them tells that a consumer was initialized. -/
def Event.AddsNoInit (events events' : List Event) : Prop :=
  ∃ more, events' = events ++ more ∧ ∀ event ∈ more, event.isInit = false

namespace Event.AddsNoInit

variable {events events' events'' : List Event}

theorem refl (events : List Event) : AddsNoInit events events :=
  ⟨[], (List.append_nil _).symm, nofun⟩

theorem trans (h : AddsNoInit events events') (h' : AddsNoInit events' events'') :
    AddsNoInit events events'' := by
  obtain ⟨more, rfl, hmore⟩ := h
  obtain ⟨more', rfl, hmore'⟩ := h'
  refine ⟨more ++ more', List.append_assoc .., fun event hevent => ?_⟩
  rcases List.mem_append.1 hevent with hevent | hevent
  · exact hmore event hevent
  · exact hmore' event hevent

end Event.AddsNoInit

/-- Events are only added, and none of them tells that a consumer was initialized. -/
def Frame.tacit {ω : Type} : Frame ω where
  Rel _ m m' := Event.AddsNoInit m.context.events m'.context.events
  refl _ m := .refl m.context.events
  trans h h' := h.trans h'

namespace Execution

variable {ω α : Type}

/-- No event is added. -/
theorem tacit_of_eq {s : Surroundings ω} {m m' : Machine ω}
    (h : m'.context.events = m.context.events) : Frame.tacit.Rel s m m' := by
  change Event.AddsNoInit _ _
  rw [h]
  exact .refl _

theorem tacit_of_outside {x : Execution ω α} (h : Keeps Frame.outside x) :
    Keeps Frame.tacit x :=
  h.mono fun {_ _ _} heq => tacit_of_eq (congrArg Context.events heq)

theorem tacit_emit {event : Event} (h : event.isInit = false) :
    Keeps Frame.tacit (emit event : Execution ω Unit) := fun _ _ =>
  ⟨[event], rfl, fun _ hevent => List.mem_singleton.1 hevent ▸ h⟩

theorem tacit_put [Stored.Format α] (entry : Entry) (a : α) :
    Keeps Frame.tacit (put entry a : Execution ω Unit) :=
  Keeps.ite (fun _ _ => tacit_of_eq rfl) (Keeps.fail _)

theorem tacit_discardTree : Keeps Frame.tacit (discardTree : Execution ω Unit) :=
  fun _ _ => tacit_of_eq rfl

theorem tacit_tree : Keeps Frame.tacit (tree : Execution ω VersionTree) := by
  have hload : Keeps Frame.tacit (loadTree : Execution ω Unit) := fun s m => by
    rw [run, loadTree]
    split
    · exact Frame.tacit.refl s m
    · split <;> exact tacit_of_eq rfl
  exact hload.bind fun _ => still_context.of_still.bind fun _ => Keeps.pure _

theorem tacit_changeTree (f : VersionTree → Except VersionError VersionTree) :
    Keeps Frame.tacit (changeTree f : Execution ω Unit) := by
  refine tacit_tree.bind fun t => Keeps.bind (fun _ _ => tacit_of_eq rfl) fun _ => ?_
  exact (still_liftVersion _).of_still.bind fun _ _ _ => tacit_of_eq rfl

/-- The events of a part that fails are discarded. -/
theorem tacit_atomic {x : Execution ω α} (h : Keeps Frame.tacit x) : Keeps Frame.tacit x.atomic :=
  h.atomic fun _ => tacit_of_eq rfl

end Execution

/-! ### Operations -/

namespace Frame

variable {ω : Type}

/-- Writing leaves no event, and nothing that tells of a write tells of an initialization. -/
theorem allowsStacks_tacit : (tacit : Frame ω).AllowsStacks where
  log entry := tacit_of_outside (outside_log entry)
  emit _ h := tacit_emit h
  putChainlet _ := tacit_put _ _
  putChainletCount _ := tacit_put _ _
  putPendingInit _ _ := tacit_put _ _
  tree := tacit_tree
  putStack _ := tacit_put _ _
  putParams _ := tacit_put _ _
  changeTree := tacit_changeTree
  discardTree := tacit_discardTree

/-- Calls leave no event, and nothing that tells of a packet tells of an initialization. -/
theorem allowsPackets_tacit : (tacit : Frame ω).AllowsPackets :=
  { AllowsCalls.of_outside allowsStacks_tacit.toAllowsRecords tacit_of_outside tacit_atomic with
    sendPacket := fun _ _ _ _ _ => tacit_of_outside (outside_attempt _)
    notice := fun {event} h => tacit_emit (by cases event <;> first | rfl | cases h) }

end Frame

end Chainlets
