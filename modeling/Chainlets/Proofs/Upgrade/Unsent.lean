import Chainlets.Proofs.Execution.Calls

/-!
# Operations that send no packet

Two operations send packets: a request for an upgrade, and a request to give one up. All others send
none, and no event of theirs tells of one; most of them do not call the parent chain at all. That is
so whether they succeed or fail, because a packet that was sent would stay sent.

## Main results

* `Frame.allowsStacks_mute` — operations that do not call the parent chain.
* `Frame.allowsCalls_unsent`, `Frame.allowsInits_unsent` — operations that do, and send no packet.
-/

namespace Chainlets.Frame

open Execution

variable {ω : Type}

/-- Nothing that is written calls the parent chain. -/
theorem allowsStacks_mute : (mute : Frame ω).AllowsStacks where
  log := mute_log
  emit h _ := mute_emit h
  putChainlet _ := mute_put _ _
  putChainletCount _ := mute_put _ _
  putPendingInit _ _ := mute_put _ _
  tree := mute_tree
  putStack _ := mute_put _ _
  putParams _ := mute_put _ _
  changeTree := mute_changeTree
  discardTree := mute_discardTree

theorem allowsRecords_unsent : (unsent : Frame (ω × List Call)).AllowsRecords where
  log entry := unsent_of_mute (mute_log entry)
  emit h _ := unsent_of_mute (mute_emit h)
  putChainlet _ := unsent_of_mute (mute_put _ _)
  putChainletCount _ := unsent_of_mute (mute_put _ _)
  putPendingInit _ _ := unsent_of_mute (mute_put _ _)
  tree := unsent_of_mute mute_tree

/-- Charging and registering are calls of their own, other than sending a packet. -/
theorem allowsCalls_unsent : (unsent : Frame (ω × List Call)).AllowsCalls :=
  { allowsRecords_unsent with
    openEscrow := fun _ _ _ => unsent_attempt fun _ w => Call.letters_concat rfl w.2
    bill := fun _ _ _ => unsent_attempt fun _ w => Call.letters_concat rfl w.2
    createConsumer := fun _ _ _ => unsent_attempt fun _ w => Call.letters_concat rfl w.2
    queueChange := fun _ _ => unsent_order fun _ w => Call.letters_concat rfl w.2
    advanceValidatorSetId := unsent_order fun _ w => Call.letters_concat rfl w.2
    -- A part of which nothing is kept leaves the events as they were, and the calls on record.
    atomic := fun h => h.atomic fun hrel => ⟨hrel.1, rfl⟩ }

/-- So are initializing consumers, and the host's own work. -/
theorem allowsInits_unsent : (unsent : Frame (ω × List Call)).AllowsInits :=
  { allowsCalls_unsent with
    sendChanges := fun _ _ => unsent_attempt fun _ w => Call.letters_concat rfl w.2
    dropPendingInit := fun _ => unsent_of_mute (mute_drop _)
    init := fun {event} h => unsent_of_mute (mute_emit (by cases event <;> first | rfl | cases h))
    housekeeping := fun height time => unsent_attempt fun parent w => by
      rw [Parent.recorded]
      cases parent.housekeeping? with
      | none => rfl
      | some housekeeping => exact Call.letters_concat rfl w.2 }

end Chainlets.Frame
