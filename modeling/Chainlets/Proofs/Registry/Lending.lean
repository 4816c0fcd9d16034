import Chainlets.Proofs.Registry.Acts

/-!
# Lending validators

A chainlet is lent validators once. It is registered as a consumer, which gives it a name and marks
it as waiting; and in some later block, when it is ready, it is initialized and the mark is taken
away. Each of the two leaves an event. So the events of a chainlet as a consumer are one of three
lists, and which of them it is can be read off its record and its mark.

Nothing has to be known of the registry at the beginning but that the chainlet is not waiting. In
particular, a chainlet may be a consumer there already; then it is never registered, and has no
events of this kind at all.

## Main definitions

* `Event.isOfConsumer` — the two kinds of events.
* `Lent` — how far the lending to a chainlet has come, by its record, its mark and its events.
* `Registry.Lent` — the same, in a registry.

## Main results

* `Registry.Act.lent`, `Registry.Acts.lent` — **events tell how far the lending has come.**
* `Registry.Acts.unlent` — who is a consumer and does not wait is not lent validators again.
-/

namespace Chainlets

/-- Whether an event tells that a chainlet was registered as a consumer, or initialized. -/
def Event.isOfConsumer (chainId : String) : Event → Bool
  | .registerConsumer other _ => other = chainId
  | .initConsumer other _ _ => other = chainId
  | _ => false

/-- How far the lending of validators to a chainlet has come: its record, the name under which it
waits, and the events that told of it. -/
inductive Lent (chainId : String) : Option Chainlet → Option ConsumerId → List Event → Prop
  /-- It was not registered. -/
  | unregistered {c? : Option Chainlet} : Lent chainId c? none []
  /-- It was registered, and waits under the name that is in its record. -/
  | waiting {c : Chainlet} {consumer : ConsumerId} (joined : c.isConsumer = true)
      (named : c.consumer? = some consumer) :
      Lent chainId (some c) (some consumer) [.registerConsumer chainId consumer]
  /-- It was registered and then initialized, under the name that is in its record. -/
  | initialized {c : Chainlet} {consumer : ConsumerId} (channel : String)
      (joined : c.isConsumer = true) (named : c.consumer? = some consumer) :
      Lent chainId (some c) none
        [.registerConsumer chainId consumer, .initConsumer chainId consumer channel]

namespace Lent

variable {chainId : String} {c? : Option Chainlet} {waiting? : Option ConsumerId}
  {told : List Event}

/-- A chainlet that is no consumer, or not there, was not registered. -/
theorem eq_of_alone (h : Lent chainId c? waiting? told)
    (halone : ∀ c, c? = some c → c.isConsumer = false) : waiting? = none ∧ told = [] := by
  cases h with
  | unregistered => exact ⟨rfl, rfl⟩
  | waiting joined => exact absurd (halone _ rfl) (by simp [joined])
  | initialized channel joined => exact absurd (halone _ rfl) (by simp [joined])

/-- Another record that says the same of the chainlet as a consumer. -/
theorem rewrite (h : Lent chainId c? waiting? told) {c' : Chainlet}
    (hkept : ∀ c, c? = some c → c'.isConsumer = c.isConsumer ∧ c'.consumer? = c.consumer?) :
    Lent chainId (some c') waiting? told := by
  cases h with
  | unregistered => exact .unregistered
  | waiting joined named =>
    obtain ⟨hjoined, hnamed⟩ := hkept _ rfl
    exact .waiting (hjoined.trans joined) (hnamed.trans named)
  | initialized channel joined named =>
    obtain ⟨hjoined, hnamed⟩ := hkept _ rfl
    exact .initialized channel (hjoined.trans joined) (hnamed.trans named)

/-- A chainlet that waits is initialized under the name under which it waits. -/
theorem init (h : Lent chainId c? waiting? told) {consumer : ConsumerId}
    (hwaits : waiting? = some consumer) (channel : String) :
    Lent chainId c? none (told ++ [.initConsumer chainId consumer channel]) := by
  cases h with
  | unregistered => cases hwaits
  | waiting joined named => cases hwaits; exact .initialized channel joined named
  | initialized => cases hwaits

/-- A chainlet that waits goes on waiting under its name as long as its events tell of no
initialization. -/
theorem waiting?_eq {more : List Event} {c?' : Option Chainlet} {waiting?' : Option ConsumerId}
    {consumer : ConsumerId} (h : Lent chainId c? (some consumer) told)
    (h' : Lent chainId c?' waiting?' (told ++ more))
    (hmore : ∀ consumer channel, .initConsumer chainId consumer channel ∉ more) :
    waiting?' = some consumer := by
  cases h with
  | waiting joined named =>
    cases h' with
    | waiting => rfl
    | initialized channel => exact absurd (List.mem_singleton_self _) (hmore _ channel)

/-- A chainlet that waits is a consumer under the name under which it waits. -/
theorem exists_of_waiting {consumer : ConsumerId} (h : Lent chainId c? (some consumer) told) :
    ∃ c, c? = some c ∧ c.isConsumer = true ∧ c.consumer? = some consumer := by
  cases h with
  | waiting joined named => exact ⟨_, rfl, joined, named⟩

/-- After a chainlet was initialized nothing more is told of it. -/
theorem eq_of_initialized {consumer : ConsumerId} {channel : String} {more : List Event}
    (h : Lent chainId c? waiting? (.registerConsumer chainId consumer ::
      .initConsumer chainId consumer channel :: more)) : waiting? = none ∧ more = [] := by
  cases h with
  | initialized => exact ⟨rfl, rfl⟩

end Lent

namespace Registry

/-- How far the lending to a chainlet has come in a registry. -/
def Lent (reg : Registry) (chainId : String) (told : List Event) : Prop :=
  Chainlets.Lent chainId (reg.chainlets.get? chainId) (reg.waiting.get? chainId) told

variable {reg reg' : Registry} {chainId : String} {told events : List Event}

/-- A registry that says the same of the chainlet. -/
theorem Lent.congr (h : reg.Lent chainId told)
    (hchainlets : reg'.chainlets.get? chainId = reg.chainlets.get? chainId)
    (hwaiting : reg'.waiting.get? chainId = reg.waiting.get? chainId) :
    reg'.Lent chainId told := by
  rw [Lent, hchainlets, hwaiting]
  exact h

/-- A record is written that says the same of its chainlet as a consumer. -/
theorem Lent.putChainlet (h : reg.Lent chainId told) {c d : Chainlet}
    (held : reg.chainlets.get? c.chainId = some d) (hjoined : c.isConsumer = d.isConsumer)
    (hnamed : c.consumer? = d.consumer?) : (reg.putChainlet c).Lent chainId told := by
  by_cases hid : chainId = c.chainId
  · subst hid
    rw [Lent, Registry.putChainlet, OrderedMap.get?_insert_self]
    refine Chainlets.Lent.rewrite h fun e he => ?_
    cases held.symm.trans he
    exact ⟨hjoined, hnamed⟩
  · exact h.congr (OrderedMap.get?_insert_of_ne _ _ hid) rfl

/-- A record is written of a chainlet that was no consumer, and that joins if it has a name then. -/
theorem Lent.joinChainlet (h : reg.Lent chainId told) {c : Chainlet}
    (halone : ∀ d, reg.chainlets.get? c.chainId = some d → d.isConsumer = false)
    (hjoined : c.consumer?.isSome = true → c.isConsumer = true) :
    ((reg.await? c.chainId c.consumer?).putChainlet c).Lent chainId
      (told ++ (Event.joining c.chainId c.consumer?).filter (Event.isOfConsumer chainId)) := by
  by_cases hid : chainId = c.chainId
  · subst hid
    obtain ⟨hidle, rfl⟩ := h.eq_of_alone halone
    rw [Lent, Registry.putChainlet, OrderedMap.get?_insert_self, get?_waiting_await?, if_pos rfl,
      hidle]
    cases hname : c.consumer? with
    | none => exact .unregistered
    | some consumer =>
      have htold : (Event.joining c.chainId (some consumer)).filter
          (Event.isOfConsumer c.chainId) = [.registerConsumer c.chainId consumer] := by
        simp [Event.joining, Event.isOfConsumer]
      rw [htold]
      exact .waiting (hjoined (by rw [hname]; rfl)) hname
  · have htold : (Event.joining c.chainId c.consumer?).filter (Event.isOfConsumer chainId) =
        [] := by
      cases c.consumer? <;> simp [Event.joining, Event.isOfConsumer, Ne.symm hid]
    rw [htold, List.append_nil]
    refine h.congr ?_ ?_
    · rw [Registry.putChainlet, OrderedMap.get?_insert_of_ne _ _ hid, chainlets_await?]
    · change (reg.await? c.chainId c.consumer?).waiting.get? chainId = _
      rw [get?_waiting_await?, if_neg hid, Option.none_or]

/-- A record is written of a chainlet that may have joined, and joined only if it was no consumer
yet. -/
theorem Lent.join? (h : reg.Lent chainId told) {c d : Chainlet} {consumer? : Option ConsumerId}
    (held : reg.chainlets.get? d.chainId = some d)
    (alone : consumer?.isSome = true → d.isConsumer = false) (hid : c.chainId = d.chainId)
    (hjoined : c.isConsumer = (d.join? consumer?).isConsumer)
    (hnamed : c.consumer? = (d.join? consumer?).consumer?) :
    ((reg.await? d.chainId consumer?).putChainlet c).Lent chainId
      (told ++ (Event.joining d.chainId consumer?).filter (Event.isOfConsumer chainId)) := by
  cases consumer? with
  | none =>
    refine Lent.putChainlet ?_ (hid ▸ held) hjoined hnamed
    rwa [Event.joining, List.filter_nil, List.append_nil]
  | some consumer =>
    have hname : c.consumer? = some consumer := hnamed
    have hput := h.joinChainlet (c := c) (fun e he => ?_) fun _ => hjoined
    · rwa [hname, hid] at hput
    · cases (hid ▸ held).symm.trans he
      exact alone rfl

/-- **An act tells by its events how far the lending to a chainlet has come.** -/
theorem Act.lent (h : reg.Act events reg') (hlent : reg.Lent chainId told) :
    reg'.Lent chainId (told ++ events.filter (Event.isOfConsumer chainId)) := by
  -- Most acts leave no event of this kind, and no act leaves another one beside that of joining.
  have hquiet {reg'' : Registry} (h : reg''.Lent chainId told) :
      reg''.Lent chainId (told ++ []) := by rwa [List.append_nil]
  have hjoining {id : String} {consumer? : Option ConsumerId} {event : Event}
      (hother : event.isOfConsumer chainId = false) :
      (Event.joining id consumer? ++ [event]).filter (Event.isOfConsumer chainId) =
        (Event.joining id consumer?).filter (Event.isOfConsumer chainId) := by
    rw [List.filter_append, List.filter_cons_of_neg (by simp [hother]), List.filter_nil,
      List.append_nil]
  cases h with
  | create => exact hquiet (hlent.congr rfl rfl)
  | extend => exact hquiet (hlent.congr rfl rfl)
  | disable => exact hquiet (hlent.congr rfl rfl)
  | @launch c params feeDenom? given room free sound =>
    rw [hjoining rfl]
    refine (hlent.joinChainlet (fun d hd => ?_) sound.consumer.2).congr rfl rfl
    rw [free] at hd
    cases hd
  | @status c status held =>
    have htold : [Event.ofStatus c.chainId status].filter (Event.isOfConsumer chainId) = [] := by
      cases status <;> rfl
    rw [htold]
    exact hquiet (hlent.putChainlet held rfl rfl)
  | @upgrade c version consumer? automatic held idle alone =>
    rw [hjoining rfl]
    exact hlent.join? (c := { c.join? consumer? with version }) held alone
      (c.chainId_join? consumer?) rfl rfl
  | @schedule c upgrade plan consumer? sequence commitment held idle alone =>
    rw [hjoining rfl]
    exact hlent.join? (c := { c.join? consumer? with upgrade? := some upgrade }) held alone
      (c.chainId_join? consumer?) rfl rfl
  | requestCancel => exact hquiet hlent
  | ignore => exact hquiet hlent
  | giveUp reason held => exact hquiet (hlent.putChainlet held rfl rfl)
  | complete height held => exact hquiet (hlent.putChainlet held rfl rfl)
  | @init id consumer channel waits =>
    by_cases hid : chainId = id
    · subst hid
      have htold : [Event.initConsumer chainId consumer channel].filter
          (Event.isOfConsumer chainId) = [.initConsumer chainId consumer channel] := by
        simp [Event.isOfConsumer]
      rw [htold, Lent, Registry.init, OrderedMap.get?_erase_self]
      exact Chainlets.Lent.init hlent waits channel
    · have htold : [Event.initConsumer id consumer channel].filter
          (Event.isOfConsumer chainId) = [] := by
        simp [Event.isOfConsumer, Ne.symm hid]
      rw [htold]
      exact hquiet (hlent.congr rfl (OrderedMap.get?_erase_of_ne _ hid))

/-- **Acts tell by their events how far the lending to a chainlet has come.** -/
theorem Acts.lent (h : reg.Acts events reg') (hlent : reg.Lent chainId told) :
    reg'.Lent chainId (told ++ events.filter (Event.isOfConsumer chainId)) := by
  induction h with
  | refl => rwa [List.filter_nil, List.append_nil]
  | tail _ act ih =>
    rw [List.filter_append, ← List.append_assoc]
    exact act.lent ih

/-- **A chainlet that is a consumer and does not wait is not lent validators again**: acts tell
nothing of it as a consumer, and it never waits. It is as if it had been initialized. -/
theorem Acts.unlent (h : reg.Acts events reg') {c : Chainlet} {consumer : ConsumerId}
    (held : reg.chainlets.get? chainId = some c) (joined : c.isConsumer = true)
    (named : c.consumer? = some consumer) (idle : reg.waiting.get? chainId = none) :
    reg'.waiting.get? chainId = none ∧ events.filter (Event.isOfConsumer chainId) = [] := by
  have hlent : reg.Lent chainId
      [.registerConsumer chainId consumer, .initConsumer chainId consumer ""] := by
    rw [Lent, held, idle]
    exact .initialized "" joined named
  exact (h.lent hlent).eq_of_initialized

end Registry

end Chainlets
