import Chainlets.Proofs.Registry.BlockActivity
import Chainlets.Proofs.Registry.Lending
import Chainlets.Proofs.Registry.Tacit

/-!
# Turns of waiting consumers

At the beginning of a block, after the scan, every waiting consumer has its turn. If it is ready it
is sent its first validators, its mark is taken away, and an event tells of it; if not it keeps its
mark, and the next one has its turn. No turn fails. What a turn leaves to the next ones is the
parent chain, which may have been changed by an attempt to send, whether or not that worked.

So which consumers are initialized is found by asking the parent chain about each of them at its
turn, and nothing else counts, unless the host's own work fails afterwards and all is undone.

## Main definitions

* `Parent.Ready` — a consumer can be sent its first validators over a channel.
* `Parent.turns`, `Parent.afterTurns` — the turns, each with the parent chain at its beginning.
* `Parent.Served` — the consumers that were ready were initialized, and the others wait.
* `Operation.TurnsTaken` — what the turns leave.

## Main results

* `Operation.run_initConsumers` — **every waiting consumer has its turn.**
* `Operation.run_keepHouse` — how the host's own work ends.
-/

namespace Chainlets

open Execution

/-! ### Turns -/

namespace Parent

variable {ω : Type} {parent : Parent ω} {world : ω}

/-- A consumer can be sent its first validators over a channel: it is launched, the channel is its
own, and sending them works. -/
structure Ready (parent : Parent ω) (world : ω) (consumer : ConsumerId) (channel : String) :
    Prop where
  launched : parent.consumerPhase consumer world = .launched
  connected : parent.consumerChannel? consumer world = some channel
  sent : (parent.sendChanges consumer channel world).1 = .ok ()

/-- The parent chain after the turn of a consumer. -/
def afterTurn (parent : Parent ω) (consumer : ConsumerId) (world : ω) : ω :=
  if parent.consumerPhase consumer world = .launched then
    match parent.consumerChannel? consumer world with
    | none => world
    | some channel => (parent.sendChanges consumer channel world).2
  else world

/-- The turns of consumers, each with the parent chain at its beginning. -/
def turns (parent : Parent ω) : List (String × ConsumerId) → ω → List ((String × ConsumerId) × ω)
  | [], _ => []
  | e :: rest, world => (e, world) :: turns parent rest (parent.afterTurn e.2 world)

/-- The parent chain after all turns. -/
def afterTurns (parent : Parent ω) (queue : List (String × ConsumerId)) (world : ω) : ω :=
  queue.foldl (fun world e => parent.afterTurn e.2 world) world

/-- Everyone who queues has a turn, in the order of the queue. -/
@[simp]
theorem map_fst_turns (parent : Parent ω) (queue : List (String × ConsumerId)) (world : ω) :
    (parent.turns queue world).map Prod.fst = queue := by
  induction queue generalizing world with
  | nil => rfl
  | cons e rest ih => rw [turns, List.map_cons, ih]

theorem exists_turn {queue : List (String × ConsumerId)} {e : String × ConsumerId}
    (h : e ∈ queue) (parent : Parent ω) (world : ω) :
    ∃ world', (e, world') ∈ parent.turns queue world := by
  rw [← parent.map_fst_turns queue world] at h
  obtain ⟨turn, hturn, rfl⟩ := List.mem_map.1 h
  exact ⟨turn.2, hturn⟩

/-- The channel over which a consumer is ready is its own. -/
theorem Ready.unique {consumer : ConsumerId} {channel channel' : String}
    (h : parent.Ready world consumer channel) (h' : parent.Ready world consumer channel') :
    channel = channel' := Option.some.inj (h.connected.symm.trans h'.connected)

/-- Of the consumers that queued, those that were ready at their turns were initialized, and wait no
more; all others wait. -/
structure Served (parent : Parent ω) (queue : List (String × ConsumerId)) (world : ω)
    (waiting? : String → Option ConsumerId) (told : List Event) : Prop where
  /-- An event is of an initialization, at the turn of a consumer that was ready. -/
  events : ∀ event ∈ told, ∃ chainId consumer channel world',
    event = .initConsumer chainId consumer channel ∧
      ((chainId, consumer), world') ∈ parent.turns queue world ∧
      parent.Ready world' consumer channel
  /-- Whoever was ready was initialized. -/
  ready : ∀ chainId consumer channel world',
    ((chainId, consumer), world') ∈ parent.turns queue world →
    parent.Ready world' consumer channel →
      Event.initConsumer chainId consumer channel ∈ told ∧ waiting? chainId = none
  /-- Whoever was not ready waits, as before. -/
  unready : ∀ chainId consumer world',
    ((chainId, consumer), world') ∈ parent.turns queue world →
    (∀ channel, ¬ parent.Ready world' consumer channel) → waiting? chainId = some consumer

namespace Served

variable {waiting? : String → Option ConsumerId} {told : List Event}
  {rest : List (String × ConsumerId)} {chainId : String} {consumer : ConsumerId}

theorem nil (parent : Parent ω) (world : ω) (waiting? : String → Option ConsumerId) :
    parent.Served [] world waiting? [] := ⟨nofun, nofun, nofun⟩

/-- The first one was ready. -/
theorem cons_ready (h : parent.Served rest (parent.afterTurn consumer world) waiting? told)
    {channel : String} (hready : parent.Ready world consumer channel)
    (hwaiting : waiting? chainId = none) :
    parent.Served ((chainId, consumer) :: rest) world waiting?
      (.initConsumer chainId consumer channel :: told) where
  events event hevent := by
    rcases List.mem_cons.1 hevent with rfl | hevent
    · exact ⟨_, _, _, _, rfl, List.mem_cons_self, hready⟩
    · obtain ⟨id, k, ch, world', heq, hturn, hready'⟩ := h.events event hevent
      exact ⟨id, k, ch, world', heq, List.mem_cons_of_mem _ hturn, hready'⟩
  ready id k ch world' hturn hready' := by
    rcases List.mem_cons.1 hturn with heq | hturn
    · cases heq
      rw [hready'.unique hready]
      exact ⟨List.mem_cons_self, hwaiting⟩
    · obtain ⟨hmem, hnone⟩ := h.ready id k ch world' hturn hready'
      exact ⟨List.mem_cons_of_mem _ hmem, hnone⟩
  unready id k world' hturn hunready := by
    rcases List.mem_cons.1 hturn with heq | hturn
    · cases heq
      exact absurd hready (hunready channel)
    · exact h.unready id k world' hturn hunready

/-- The first one was not ready. -/
theorem cons_unready (h : parent.Served rest (parent.afterTurn consumer world) waiting? told)
    (hunready : ∀ channel, ¬ parent.Ready world consumer channel)
    (hwaiting : waiting? chainId = some consumer) :
    parent.Served ((chainId, consumer) :: rest) world waiting? told where
  events event hevent := by
    obtain ⟨id, k, ch, world', heq, hturn, hready'⟩ := h.events event hevent
    exact ⟨id, k, ch, world', heq, List.mem_cons_of_mem _ hturn, hready'⟩
  ready id k ch world' hturn hready' := by
    rcases List.mem_cons.1 hturn with heq | hturn
    · cases heq
      exact absurd hready' (hunready ch)
    · exact h.ready id k ch world' hturn hready'
  unready id k world' hturn hunready' := by
    rcases List.mem_cons.1 hturn with heq | hturn
    · cases heq
      exact hwaiting
    · exact h.unready id k world' hturn hunready'

end Served

end Parent

namespace Operation

variable {ω : Type} {reg : Registry} {s : Surroundings ω} {m : Machine ω} {chainId : String}
  {consumer : ConsumerId}

/-- The turn of a consumer that is ready. -/
theorem run_initConsumer_of_ready {channel : String}
    (h : s.parent.Ready m.world consumer channel) :
    ∃ m', (initConsumer chainId consumer).run s m = (.ok (), m') ∧
      m'.world = s.parent.afterTurn consumer m.world ∧
      m'.context = { m.context with
        updates := m.context.updates.delete (Entry.pendingInit chainId).key
        events := m.context.events ++ [.initConsumer chainId consumer channel] } := by
  obtain ⟨hlaunched, hconnected, hsent⟩ := h
  rw [initConsumer, run_bind_of_ok (run_ask ..), if_pos hlaunched, run_bind_of_ok (run_ask ..),
    hconnected, Parent.afterTurn, if_pos hlaunched, hconnected]
  dsimp only
  rw [run_bind_of_ok (run_attempt ..), hsent]
  exact ⟨_, rfl, rfl, rfl⟩

/-- The turn of a consumer that is not. -/
theorem run_initConsumer_of_unready (h : ∀ channel, ¬ s.parent.Ready m.world consumer channel) :
    ∃ m', (initConsumer chainId consumer).run s m = (.ok (), m') ∧
      m'.world = s.parent.afterTurn consumer m.world ∧ m'.context = m.context := by
  rw [initConsumer, run_bind_of_ok (run_ask ..), Parent.afterTurn]
  by_cases hlaunched : s.parent.consumerPhase consumer m.world = .launched
  · rw [if_pos hlaunched, if_pos hlaunched, run_bind_of_ok (run_ask ..)]
    cases hconnected : s.parent.consumerChannel? consumer m.world with
    | none => exact ⟨_, rfl, rfl, rfl⟩
    | some channel =>
      dsimp only
      rw [run_bind_of_ok (run_attempt ..)]
      cases hsent : (s.parent.sendChanges consumer channel m.world).1 with
      | error reason => exact ⟨_, rfl, rfl, rfl⟩
      | ok _ => exact absurd ⟨hlaunched, hconnected, hsent⟩ (h channel)
  · rw [if_neg hlaunched, if_neg hlaunched]
    exact ⟨_, rfl, rfl, rfl⟩

/-- A machine after the turns of consumers: the parent chain has changed turn by turn, and in the
registry those that were ready wait no more. -/
structure TurnsTaken (s : Surroundings ω) (reg : Registry) (queue : List (String × ConsumerId))
    (m m' : Machine ω) (told : List Event) (reg' : Registry) : Prop where
  world : m'.world = s.parent.afterTurns queue m.world
  time : m'.context.time = m.context.time
  events : m'.context.events = m.context.events ++ told
  shows : reg'.ShownBy (Overlay.mk s.store m'.context.updates)
  served : s.parent.Served queue m.world reg'.waiting.get? told
  others : ∀ chainId, (∀ e ∈ queue, chainId ≠ e.1) →
    reg'.waiting.get? chainId = reg.waiting.get? chainId

/-- The turn of the first consumer, and then those of the others. -/
theorem TurnsTaken.cons {m₁ m' : Machine ω} {reg₁ reg' : Registry} {first told : List Event}
    {rest : List (String × ConsumerId)} (h : TurnsTaken s reg₁ rest m₁ m' told reg')
    (hworld : m₁.world = s.parent.afterTurn consumer m.world)
    (htime : m₁.context.time = m.context.time)
    (hevents : m₁.context.events = m.context.events ++ first)
    (hothers : ∀ other, other ≠ chainId → reg₁.waiting.get? other = reg.waiting.get? other)
    (hserved : s.parent.Served ((chainId, consumer) :: rest) m.world reg'.waiting.get?
      (first ++ told)) :
    TurnsTaken s reg ((chainId, consumer) :: rest) m m' (first ++ told) reg' where
  world := by rw [h.world, hworld, Parent.afterTurns, Parent.afterTurns, List.foldl_cons]
  time := h.time.trans htime
  events := by rw [h.events, hevents, List.append_assoc]
  shows := h.shows
  served := hserved
  others other hne := (h.others other fun e he => hne e (List.mem_cons_of_mem _ he)).trans
    (hothers other (hne _ List.mem_cons_self))

/-- Consumers that wait have their turns one after the other. They are different ones, so what one
turn does to its own mark is not undone by another turn. -/
theorem run_initConsumers_of {queue : List (String × ConsumerId)}
    (hwait : ∀ e ∈ queue, reg.waiting.get? e.1 = some e.2)
    (hapart : queue.Pairwise fun e e' => e.1 ≠ e'.1)
    (hshows : reg.ShownBy (Overlay.mk s.store m.context.updates)) :
    ∃ m' told reg', (queue.forM fun (chainId, consumer) => initConsumer chainId consumer :
        Execution ω Unit).run s m = (.ok (), m') ∧ TurnsTaken s reg queue m m' told reg' := by
  induction queue generalizing reg m with
  | nil =>
    exact ⟨m, [], reg, rfl, rfl, rfl, (List.append_nil _).symm, hshows, .nil _ _ _, fun _ _ => rfl⟩
  | cons e rest ih =>
    obtain ⟨chainId, consumer⟩ := e
    have hhead : reg.waiting.get? chainId = some consumer := hwait _ List.mem_cons_self
    have hne (e : String × ConsumerId) (he : e ∈ rest) : chainId ≠ e.1 :=
      List.rel_of_pairwise_cons hapart he
    by_cases hready : ∃ channel, s.parent.Ready m.world consumer channel
    · obtain ⟨channel, hready⟩ := hready
      obtain ⟨m₁, hrun, hworld, hcontext⟩ :=
        @run_initConsumer_of_ready _ s m chainId consumer channel hready
      have hwait₁ (e : String × ConsumerId) (he : e ∈ rest) :
          (reg.init chainId).waiting.get? e.1 = some e.2 :=
        (OrderedMap.get?_erase_of_ne _ (hne e he).symm).trans (hwait e (List.mem_cons_of_mem _ he))
      obtain ⟨m', told, reg', hrest, h⟩ := @ih _ m₁ hwait₁ hapart.of_cons
        (by rw [hcontext]; exact hshows.init chainId)
      refine ⟨m', [.initConsumer chainId consumer channel] ++ told, reg',
        (run_bind_of_ok hrun).trans hrest, h.cons hworld ?_ ?_ ?_ ?_⟩
      · rw [hcontext]
      · rw [hcontext]
      · exact fun other hother => OrderedMap.get?_erase_of_ne _ hother
      · refine Parent.Served.cons_ready (hworld ▸ h.served) hready ?_
        rw [h.others chainId hne]
        exact OrderedMap.get?_erase_self ..
    · have hunready := not_exists.1 hready
      obtain ⟨m₁, hrun, hworld, hcontext⟩ :=
        @run_initConsumer_of_unready _ s m chainId consumer hunready
      obtain ⟨m', told, reg', hrest, h⟩ := @ih reg m₁
        (fun e he => hwait e (List.mem_cons_of_mem _ he)) hapart.of_cons (by rwa [hcontext])
      refine ⟨m', [] ++ told, reg', (run_bind_of_ok hrun).trans hrest,
        h.cons hworld ?_ ?_ (fun _ _ => rfl) ?_⟩
      · rw [hcontext]
      · rw [hcontext, List.append_nil]
      · refine Parent.Served.cons_unready (hworld ▸ h.served) hunready ?_
        rw [h.others chainId hne, hhead]

/-- **Every waiting consumer has its turn.** -/
theorem run_initConsumers (hshows : reg.ShownBy (Overlay.mk s.store m.context.updates)) :
    ∃ m' told reg', (initConsumers : Execution ω Unit).run s m = (.ok (), m') ∧
      TurnsTaken s reg reg.waiting.toList m m' told reg' := by
  obtain ⟨m', told, reg', hrun, h⟩ := @run_initConsumers_of _ reg s m reg.waiting.toList
    (fun e he => OrderedMap.get?_eq_some_iff.2 he)
    (OrderedMap.distinct_of_ascending reg.waiting.ascending) hshows
  refine ⟨m', told, reg', ?_, h⟩
  have hread : Readable.pendingInits (Overlay.mk s.store m.context.updates) =
      .ok reg.waiting.toList := hshows.waiting.readAll
  rw [initConsumers, run_bind_of_ok (run_view ..), hread]
  exact hrun

/-! ### Afterwards -/

/-- How the host's own work ends. -/
theorem run_keepHouse (height : Height) :
    (∃ m', (keepHouse height : Execution ω Unit).run s m = (.ok (), m') ∧
      m'.context = m.context) ∨
    ∃ housekeeping reason m', s.parent.housekeeping? = some housekeeping ∧
      (housekeeping height m.context.time m.world).1 = .error reason ∧
      (keepHouse height : Execution ω Unit).run s m = (.error (.collaborator reason), m') := by
  rw [keepHouse, run_bind_of_ok (run_context ..), call, run_bind_of_ok (run_attempt ..)]
  cases hhousekeeping : s.parent.housekeeping? with
  | none => exact .inl ⟨_, rfl, rfl⟩
  | some housekeeping =>
    dsimp only
    cases hworked : (housekeeping height m.context.time m.world).1 with
    | ok _ => exact .inl ⟨_, rfl, rfl⟩
    | error reason => exact .inr ⟨housekeeping, reason, _, rfl, hworked, rfl⟩

end Operation

end Chainlets
