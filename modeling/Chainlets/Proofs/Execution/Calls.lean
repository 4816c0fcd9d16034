import Chainlets.Host.World
import Chainlets.Proofs.Execution.Allowed

/-!
# Calls on record

What an execution makes the parent chain do cannot be undone, so it is told apart from what the
execution does to the context. A parent chain is put on record by keeping, beside its state, the
calls that were made and could have changed it, with what they answered. The answers are the ones
that it would have given anyway, because they depend on its own state alone.

Most executions send no packets, and many do not call the parent chain at all.

## Main definitions

* `Call`, with `Call.letter?` — the packet that a call sent.
* `Parent.recorded` — a parent chain on record.
* `Event.notices` — the events that tell of packets that were sent.
* `Frame.mute` — the parent chain is not called; `Frame.unsent` — no packet is sent. Neither leaves
  an event that tells of a packet.
-/

namespace Chainlets

/-- A call that may change the parent chain, and what it answered. -/
inductive Call where
  | openEscrow (payer chainId : String) (deposit : Coin) (answer : Except String Unit)
  | bill (amount : Coin) (chainlet : Chainlet) (memo : String) (answer : Except String Unit)
  | createConsumer (chainId : String) (spawnTime : Time) (unbonding : Duration)
      (answer : Except String ConsumerId)
  | advanceValidatorSetId
  | queueChange (consumer : ConsumerId) (change : ValidatorChange)
  | sendChanges (consumer : ConsumerId) (channel : String) (answer : Except String Unit)
  | sendPacket (port channel : String) (timeoutHeight : Height) (timeoutTime : Time)
      (data : Bytes) (answer : Except String Sequence)
  | housekeeping (height : Height) (time : Time) (answer : Except String Unit)

namespace Call

/-- The packet that a call sent. -/
def letter? : Call → Option Host.SentPacket
  | .sendPacket port channel timeoutHeight timeoutTime data (.ok sequence) =>
    some ⟨port, channel, sequence, timeoutHeight, timeoutTime, data⟩
  | _ => none

/-- The packets that a list of calls sent, in order. -/
def letters (calls : List Call) : List Host.SentPacket := calls.filterMap letter?

/-- Do something, and put it on record. -/
def record {ω α : Type} (call : Except String α → Call) (command : ω → Called ω α)
    (w : ω × List Call) : Called (ω × List Call) α :=
  ((command w.1).1, ((command w.1).2, w.2 ++ [call (command w.1).1]))

theorem letters_append (calls more : List Call) :
    letters (calls ++ more) = letters calls ++ letters more := List.filterMap_append

/-- A call that sends no packet. -/
theorem letters_concat {call : Call} (h : call.letter? = none) (calls : List Call) :
    letters (calls ++ [call]) = letters calls := by
  rw [letters_append, letters, letters, List.filterMap_cons_none h, List.filterMap_nil,
    List.append_nil]

end Call

/-- A parent chain on record. -/
def Parent.recorded {ω : Type} (parent : Parent ω) : Parent (ω × List Call) where
  isAdmin address w := parent.isAdmin address w.1
  mayManageStacks address w := parent.mayManageStacks address w.1
  openEscrow payer chainId deposit :=
    Call.record (.openEscrow payer chainId deposit) (parent.openEscrow payer chainId deposit)
  bill amount chainlet memo :=
    Call.record (.bill amount chainlet memo) (parent.bill amount chainlet memo)
  createConsumer chainId spawnTime unbonding :=
    Call.record (.createConsumer chainId spawnTime unbonding)
      (parent.createConsumer chainId spawnTime unbonding)
  validatorSetId w := parent.validatorSetId w.1
  advanceValidatorSetId w := (parent.advanceValidatorSetId w.1, w.2 ++ [.advanceValidatorSetId])
  queueChange consumer change w :=
    (parent.queueChange consumer change w.1, w.2 ++ [.queueChange consumer change])
  consumerClient? consumer w := parent.consumerClient? consumer w.1
  consumerChannel? consumer w := parent.consumerChannel? consumer w.1
  consumerPhase consumer w := parent.consumerPhase consumer w.1
  sendChanges consumer channel :=
    Call.record (.sendChanges consumer channel) (parent.sendChanges consumer channel)
  routes w := parent.routes w.1
  sendPacket port channel timeoutHeight timeoutTime data :=
    Call.record (.sendPacket port channel timeoutHeight timeoutTime data)
      (parent.sendPacket port channel timeoutHeight timeoutTime data)
  housekeeping? := parent.housekeeping?.map fun housekeeping height time =>
    Call.record (.housekeeping height time) (housekeeping height time)

/-! ### Frames -/

/-- The events that tell of packets that were sent, in order. -/
def Event.notices (events : List Event) : List Event := events.filter isNotice

theorem Event.notices_append (events more : List Event) :
    notices (events ++ more) = notices events ++ notices more := List.filter_append ..

/-- The parent chain is not called, and no event tells of a packet. -/
def Frame.mute {ω : Type} : Frame ω where
  Rel _ m m' := m'.world = m.world ∧
    Event.notices m'.context.events = Event.notices m.context.events
  refl _ _ := ⟨rfl, rfl⟩
  trans h h' := ⟨h'.1.trans h.1, h'.2.trans h.2⟩

/-- No packet is sent, if the parent chain is on record, and no event tells of one. -/
def Frame.unsent {ω : Type} : Frame (ω × List Call) where
  Rel s m m' := ((∃ parent : Parent ω, s.parent = parent.recorded) →
    Call.letters m'.world.2 = Call.letters m.world.2) ∧
      Event.notices m'.context.events = Event.notices m.context.events
  refl _ _ := ⟨fun _ => rfl, rfl⟩
  trans h h' := ⟨fun hrecorded => (h'.1 hrecorded).trans (h.1 hrecorded), h'.2.trans h.2⟩

namespace Execution

/-- A sequence whose first part only reads goes on with the same machine. -/
theorem Keeps.bind_ok {ω α β : Type} {x : Execution ω α} {f : α → Execution ω β}
    {s : Surroundings ω} {m m' : Machine ω} {b : β} (h : Keeps Frame.still x)
    (hrun : (x >>= f).run s m = (.ok b, m')) :
    ∃ a, x.run s m = (.ok a, m) ∧ (f a).run s m = (.ok b, m') := by
  obtain ⟨a, m₁, hfirst, hrest⟩ := bind_eq_ok.1 hrun
  obtain rfl : m₁ = m := h.rel hfirst
  exact ⟨a, hfirst, hrest⟩

section Mute

variable {ω α : Type}

theorem mute_log (entry : LogEntry) : Keeps Frame.mute (log entry : Execution ω Unit) :=
  fun _ _ => ⟨rfl, rfl⟩

theorem mute_emit {event : Event} (h : event.isNotice = false) :
    Keeps Frame.mute (emit event : Execution ω Unit) := fun s m => by
  refine ⟨rfl, ?_⟩
  change Event.notices (m.context.events ++ [event]) = _
  rw [Event.notices_append, Event.notices, Event.notices, List.filter_cons_of_neg (by simp [h]),
    List.filter_nil, List.append_nil]

theorem mute_put [Stored.Format α] (entry : Entry) (a : α) :
    Keeps Frame.mute (put entry a : Execution ω Unit) :=
  Keeps.ite (fun _ _ => ⟨rfl, rfl⟩) (Keeps.fail _)

theorem mute_drop (entry : Entry) : Keeps Frame.mute (drop entry : Execution ω Unit) :=
  fun _ _ => ⟨rfl, rfl⟩

theorem mute_discardTree : Keeps Frame.mute (discardTree : Execution ω Unit) :=
  fun _ _ => ⟨rfl, rfl⟩

theorem mute_tree : Keeps Frame.mute (tree : Execution ω VersionTree) := by
  have hload : Keeps Frame.mute (loadTree : Execution ω Unit) := by
    intro s m
    change Frame.mute.Rel s m (loadTree s m).2
    rw [loadTree]
    split
    · exact Frame.mute.refl s m
    · split
      · exact Frame.mute.refl s m
      · exact ⟨rfl, rfl⟩
  exact hload.bind fun _ => still_context.of_still.bind fun _ => Keeps.pure _

theorem mute_changeTree (f : VersionTree → Except VersionError VersionTree) :
    Keeps Frame.mute (changeTree f : Execution ω Unit) := by
  refine mute_tree.bind fun t => Keeps.bind (fun _ _ => ⟨rfl, rfl⟩) fun _ => ?_
  exact (still_liftVersion _).of_still.bind fun _ _ _ => ⟨rfl, rfl⟩

end Mute

section Unsent

variable {ω α : Type}

theorem unsent_of_mute {x : Execution (ω × List Call) α} (h : Keeps Frame.mute x) :
    Keeps Frame.unsent x :=
  h.mono fun {_ m m'} (heq : m'.world = m.world ∧ _) => ⟨fun _ => by rw [heq.1], heq.2⟩

theorem unsent_order {command : Parent (ω × List Call) → ω × List Call → ω × List Call}
    (h : ∀ (parent : Parent ω) w, Call.letters (command parent.recorded w).2 =
      Call.letters w.2) : Keeps Frame.unsent (order command) := by
  refine fun s m => ⟨?_, rfl⟩
  rintro ⟨parent, hparent⟩
  have hcommand := h parent m.world
  rw [← hparent] at hcommand
  exact hcommand

theorem unsent_attempt {command : Parent (ω × List Call) → ω × List Call →
    Called (ω × List Call) α} (h : ∀ (parent : Parent ω) w,
      Call.letters (command parent.recorded w).2.2 = Call.letters w.2) :
    Keeps Frame.unsent (attempt command) := by
  refine fun s m => ⟨?_, rfl⟩
  rintro ⟨parent, hparent⟩
  have hcommand := h parent m.world
  rw [← hparent] at hcommand
  exact hcommand

end Unsent

/-! ### Executions that may send at last -/

/-- A run sends no packet, or it ends in some way. -/
def UnsentOr {ω α : Type} (x : Execution (ω × List Call) α) (s : Surroundings (ω × List Call))
    (m : Machine (ω × List Call))
    (Q : Except Failure α → Machine (ω × List Call) → Prop) : Prop :=
  Frame.unsent.Rel s m (x.run s m).2 ∨ Q (x.run s m).1 (x.run s m).2

namespace UnsentOr

variable {ω α β : Type} {s : Surroundings (ω × List Call)} {m : Machine (ω × List Call)}
  {Q : Except Failure β → Machine (ω × List Call) → Prop}

theorem of_unsent {x : Execution (ω × List Call) β} (h : Keeps Frame.unsent x) :
    x.UnsentOr s m Q := .inl (h s m)

/-- A part that sends no packet, and what comes after it if it succeeds. -/
theorem bind {x : Execution (ω × List Call) α} {f : α → Execution (ω × List Call) β}
    (hx : Keeps Frame.unsent x) (hf : ∀ a m₁, x.run s m = (.ok a, m₁) →
      Frame.unsent.Rel s m m₁ → (f a).UnsentOr s m₁ Q) : (x >>= f).UnsentOr s m Q := by
  have hrel := hx s m
  rw [UnsentOr, run_bind]
  cases hrun : x.run s m with
  | mk result m₁ =>
    rw [hrun] at hrel
    cases result with
    | error failure => exact .inl hrel
    | ok a =>
      rcases hf a m₁ hrun hrel with hrest | hends
      · exact .inl (Frame.unsent.trans hrel hrest)
      · exact .inr hends

/-- A part that only reads, and what comes after it if it succeeds. -/
theorem bind_still {x : Execution (ω × List Call) α} {f : α → Execution (ω × List Call) β}
    (hx : Keeps Frame.still x)
    (hf : ∀ a, x.run s m = (.ok a, m) → (f a).UnsentOr s m Q) : (x >>= f).UnsentOr s m Q := by
  refine bind hx.of_still fun a m₁ hrun _ => ?_
  obtain rfl : m₁ = m := hx.rel hrun
  exact hf a hrun

/-- A check, and what comes after it if it is passed. -/
theorem guarded {c : Prop} [Decidable c] {failure : Failure}
    {f : α → Execution (ω × List Call) β} {x : Execution (ω × List Call) β}
    (hx : ¬ c → x.UnsentOr s m Q) :
    (if c then Execution.fail failure >>= f else x).UnsentOr s m Q := by
  split
  · exact of_unsent (Keeps.fail _)
  next hc => exact hx hc

end UnsentOr

end Execution

end Chainlets
