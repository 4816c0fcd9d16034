import Chainlets.ChainId
import Chainlets.Proofs.Data.OrderedMap
import Chainlets.Proofs.Registry.Basic
import Mathlib.Logic.Relation

/-!
# Moves of the registry

What users ask for, and what is done at the beginning of a block, changes the registry in moves of a
few kinds: a stack is created, gets another version or has one disabled; a chainlet is launched,
joins as a consumer, or turns from one record to the next; a consumer that waited is initialized. An
operation makes several moves when it upgrades a chainlet that has to join first, and at the
beginning of a block. No move settles an upgrade that is pending; only callbacks do that.

A registry is well-formed when what is kept of stacks, chainlets, waiting consumers and their number
fits together. The parts support each other: a chainlet may complete an upgrade because the pending
one names a version of its stack, and that stays so because versions are never taken away. Each kind
of move keeps a registry well-formed.

## Main definitions

* `Catalog.Registers` — a stack has a version, enabled or not.
* `Chainlet.Sound` — a chainlet is in order, given the stacks.
* `Registry.Filed` — everything is stored under its own name.
* `Registry.WellFormed` — **the invariant.**
* `Chainlet.Turn`, `Registry.Move`, `Registry.Moves` — one record, one move, and many moves.

## Main results

* `Registry.Move.wellFormed` — each move keeps a registry well-formed.
-/

namespace Chainlets

/-! ### Well-formed registries -/

/-- A stack of the catalog has a version, enabled or not. -/
def Catalog.Registers (catalog : Catalog) (stack version : String) : Prop :=
  ∃ found, OrderedMap.get? catalog stack = some found ∧ (found.version? version).isSome = true

/-- What a well-formed catalog has as a version is one. -/
theorem Catalog.Registers.parses {catalog : Catalog} {stack version : String}
    (h : catalog.Registers stack version) (hcatalog : Catalog.WellFormed catalog) :
    ∃ p, Version.parse version = .ok p := by
  obtain ⟨found, hfound, hversion⟩ := h
  obtain ⟨v, hv⟩ := Option.isSome_iff_exists.1 hversion
  have hname : v.version = version := by simpa using List.find?_some hv
  rw [← hname]
  exact (hcatalog hfound).2.parses (List.mem_of_find?_eq_some hv)

/-- A chainlet is in order, given the stacks. -/
structure Chainlet.Sound (catalog : Catalog) (c : Chainlet) : Prop where
  /-- Its chain id is valid. -/
  valid : ChainId.isValid c.chainId = true
  /-- Its stack has the version that it runs. -/
  registered : Catalog.Registers catalog c.stack c.version
  /-- It is a consumer exactly if it has a name as one. -/
  consumer : c.isConsumer = true ↔ c.consumer?.isSome = true
  /-- A pending upgrade is one of a consumer, to a version of its stack, and a breaking one. -/
  upgrade : ∀ upgrade, c.upgrade? = some upgrade → c.isConsumer = true ∧
    Catalog.Registers catalog c.stack upgrade.targetVersion ∧
    Upgrade.kind c.version upgrade.targetVersion = .ok .breaking

/-- Every stack is in order, and every chainlet is stored under its own chain id. A genesis state
that passes the check gives as much, whatever it says of consumers and pending upgrades. -/
structure Registry.Filed (reg : Registry) : Prop where
  catalog : Catalog.WellFormed reg.catalog
  chainlets : ∀ chainId c, reg.chainlets.get? chainId = some c → c.chainId = chainId

/-- What is kept of stacks, chainlets and waiting consumers fits together. -/
structure Registry.WellFormed (reg : Registry) : Prop where
  /-- Every stack is stored under its own name, its versions are versions, and no two of them share
  an image, a version text or a checksum. -/
  catalog : Catalog.WellFormed reg.catalog
  /-- Every chainlet is stored under its own chain id, and is in order. -/
  chainlets : ∀ chainId c, reg.chainlets.get? chainId = some c →
    c.chainId = chainId ∧ c.Sound reg.catalog
  /-- Whoever waits as a consumer is a chainlet that is this consumer. -/
  waiting : ∀ chainId consumer, reg.waiting.get? chainId = some consumer →
    ∃ c, reg.chainlets.get? chainId = some c ∧ c.consumer? = some consumer
  /-- The number that is kept is that of the chainlets. -/
  count : reg.count.toNat = reg.chainlets.toList.length
  /-- There are not more chainlets than the parameters allow. -/
  limit : ∀ params, reg.params? = some params → reg.count.toNat ≤ params.maxChainlets.toNat

theorem Registry.WellFormed.filed {reg : Registry} (h : reg.WellFormed) : reg.Filed where
  catalog := h.catalog
  chainlets chainId c hc := (h.chainlets chainId c hc).1

theorem Registry.wellFormed_empty : Registry.empty.WellFormed where
  catalog := fun h => by cases h
  chainlets _ _ h := by cases h
  waiting _ _ h := by cases h
  count := rfl
  limit _ h := by cases h

/-! ### Moves -/

/-- What becomes of the record of a chainlet in one move. -/
inductive Chainlet.Turn (catalog : Catalog) (c : Chainlet) : Chainlet → Prop
  /-- It goes online or offline. -/
  | status (status : Status) : Turn catalog c { c with status }
  /-- It is moved to another version without being asked. -/
  | upgrade {version : String} (idle : c.upgrade? = none)
      (registered : Catalog.Registers catalog c.stack version)
      (compatible : Upgrade.kind c.version version = .ok .compatible) :
      Turn catalog c { c with version }
  /-- It is asked to take part in a breaking upgrade. -/
  | schedule {upgrade : PendingUpgrade} (idle : c.upgrade? = none) (consumer : c.isConsumer = true)
      (registered : Catalog.Registers catalog c.stack upgrade.targetVersion)
      (breaking : Upgrade.kind c.version upgrade.targetVersion = .ok .breaking) :
      Turn catalog c { c with upgrade? := some upgrade }

/-- The chainlet as a consumer. -/
def Chainlet.join (c : Chainlet) (consumer : ConsumerId) : Chainlet :=
  { c with isConsumer := true, consumer? := some consumer }

/-- The registry with a chainlet that waits as a consumer, if it is one. -/
def Registry.await? (reg : Registry) (chainId : String) : Option ConsumerId → Registry
  | none => reg
  | some consumer => reg.await chainId consumer

namespace Registry

/-- What becomes of the registry in one move. -/
inductive Move (reg : Registry) : Registry → Prop
  /-- A stack is created. -/
  | create {stack : Stack} (free : reg.catalog.get? stack.name = none)
      (wellFormed : stack.WellFormed) : Move reg (reg.putStack stack)
  /-- A stack gets another version. -/
  | extend {stack : Stack} {v : StackVersion} (held : reg.catalog.get? stack.name = some stack)
      (parses : ∃ p, Version.parse v.version = .ok p)
      (apart : ∀ w ∈ stack.versions, ¬ w.CollidesWith v) :
      Move reg (reg.putStack (stack.addVersion v))
  /-- A version of a stack is disabled. -/
  | disable {stack : Stack} (version : String) (held : reg.catalog.get? stack.name = some stack) :
      Move reg (reg.putStack (stack.disable version))
  /-- A chainlet is launched. -/
  | launch {c : Chainlet} {params : Params} (given : reg.params? = some params)
      (room : reg.count < params.maxChainlets) (free : reg.chainlets.get? c.chainId = none)
      (sound : c.Sound reg.catalog) :
      Move reg (((reg.await? c.chainId c.consumer?).putChainlet c).withCount (reg.count + 1))
  /-- A chainlet joins as a consumer. -/
  | join {c : Chainlet} (consumer : ConsumerId) (held : reg.chainlets.get? c.chainId = some c)
      (alone : c.isConsumer = false) :
      Move reg ((reg.await c.chainId consumer).putChainlet (c.join consumer))
  /-- A chainlet turns. -/
  | turn {c c' : Chainlet} (held : reg.chainlets.get? c.chainId = some c)
      (turn : c.Turn reg.catalog c') : Move reg (reg.putChainlet c')
  /-- A consumer that waited is initialized. -/
  | init (chainId : String) : Move reg (reg.init chainId)

/-- What becomes of the registry in any number of moves. -/
def Moves : Registry → Registry → Prop := Relation.ReflTransGen Move

end Registry

/-! ### What turns keep -/

namespace Chainlet

variable {catalog catalog' : Catalog} {c c' : Chainlet}

/-- A chainlet stays in order while its stack keeps its versions. -/
theorem Sound.mono (h : c.Sound catalog)
    (hregisters : ∀ stack version, Catalog.Registers catalog stack version →
      Catalog.Registers catalog' stack version) : c.Sound catalog' where
  valid := h.valid
  registered := hregisters _ _ h.registered
  consumer := h.consumer
  upgrade upgrade hupgrade := by
    obtain ⟨hconsumer, hregistered, hbreaking⟩ := h.upgrade upgrade hupgrade
    exact ⟨hconsumer, hregisters _ _ hregistered, hbreaking⟩

theorem Sound.join (h : c.Sound catalog) (consumer : ConsumerId) :
    (c.join consumer).Sound catalog where
  valid := h.valid
  registered := h.registered
  consumer := by simp [Chainlet.join]
  upgrade upgrade hupgrade := ⟨rfl, (h.upgrade upgrade hupgrade).2⟩

theorem Turn.chainId_eq (h : c.Turn catalog c') : c'.chainId = c.chainId := by
  cases h <;> rfl

theorem Turn.consumer?_eq (h : c.Turn catalog c') : c'.consumer? = c.consumer? := by
  cases h <;> rfl

theorem Turn.sound (h : c.Turn catalog c') (hc : c.Sound catalog) : c'.Sound catalog := by
  cases h with
  | status status => exact ⟨hc.valid, hc.registered, hc.consumer, hc.upgrade⟩
  | upgrade idle registered compatible =>
    refine ⟨hc.valid, registered, hc.consumer, fun upgrade hupgrade => ?_⟩
    rw [show c.upgrade? = some upgrade from hupgrade] at idle
    cases idle
  | schedule idle consumer registered breaking =>
    refine ⟨hc.valid, hc.registered, hc.consumer, ?_⟩
    rintro _ ⟨⟩
    exact ⟨consumer, registered, breaking⟩

end Chainlet

/-! ### What moves keep -/

/-- Versions stay when a stack is replaced by one that has them. -/
theorem Catalog.Registers.insert {catalog : Catalog} {stack : Stack}
    (hkeeps : ∀ old, catalog.get? stack.name = some old →
      ∀ version, (old.version? version).isSome = true → (stack.version? version).isSome = true)
    {name version : String} (h : Catalog.Registers catalog name version) :
    Catalog.Registers (catalog.insert stack.name stack) name version := by
  obtain ⟨old, hget, hversion⟩ := h
  by_cases hname : name = stack.name
  · subst hname
    exact ⟨stack, OrderedMap.get?_insert_self .., hkeeps old hget version hversion⟩
  · exact ⟨old, by rw [OrderedMap.get?_insert_of_ne _ _ hname, hget], hversion⟩

theorem Stack.version?_addVersion {stack : Stack} {v : StackVersion} {version : String}
    (h : (stack.version? version).isSome = true) :
    ((stack.addVersion v).version? version).isSome = true := by
  rw [Stack.version?, List.find?_isSome] at h ⊢
  obtain ⟨w, hw, heq⟩ := h
  exact ⟨w, List.mem_append_left _ hw, heq⟩

theorem Stack.version?_disable {stack : Stack} {disabled version : String}
    (h : (stack.version? version).isSome = true) :
    ((stack.disable disabled).version? version).isSome = true := by
  rw [Stack.version?, List.find?_isSome] at h ⊢
  rw [Stack.disable]
  obtain ⟨w, hw, heq⟩ := h
  generalize stack.versions = l at hw
  induction l with
  | nil => cases hw
  | cons v l ih =>
    rw [Stack.disableFirst]
    split
    next =>
      rcases List.mem_cons.1 hw with rfl | hw
      · exact ⟨_, List.mem_cons_self, heq⟩
      · exact ⟨w, List.mem_cons_of_mem _ hw, heq⟩
    next =>
      rcases List.mem_cons.1 hw with rfl | hw
      · exact ⟨w, List.mem_cons_self, heq⟩
      · obtain ⟨x, hx, heq'⟩ := ih hw
        exact ⟨x, List.mem_cons_of_mem _ hx, heq'⟩

namespace Registry

variable {reg reg' reg'' : Registry}

/-- A stack that has all versions of the one whose place it takes. -/
theorem WellFormed.putStack (h : reg.WellFormed) {stack : Stack} (hstack : stack.WellFormed)
    (hkeeps : ∀ old, reg.catalog.get? stack.name = some old →
      ∀ version, (old.version? version).isSome = true → (stack.version? version).isSome = true) :
    (reg.putStack stack).WellFormed where
  catalog := Catalog.WellFormed.insert h.catalog hstack
  chainlets chainId c hc := by
    obtain ⟨hid, hsound⟩ := h.chainlets chainId c hc
    exact ⟨hid, hsound.mono fun _ _ hregisters => hregisters.insert hkeeps⟩
  waiting := h.waiting
  count := h.count
  limit := h.limit

/-- Every chainlet is in order once one that is has been written. -/
theorem WellFormed.chainlets_insert (h : reg.WellFormed) {c : Chainlet}
    (hsound : c.Sound reg.catalog) {chainId : String} {d : Chainlet}
    (hd : (reg.chainlets.insert c.chainId c).get? chainId = some d) :
    d.chainId = chainId ∧ d.Sound reg.catalog := by
  rcases OrderedMap.get?_insert_cases hd with ⟨rfl, rfl⟩ | hd
  · exact ⟨rfl, hsound⟩
  · exact h.chainlets chainId d hd

/-- A chainlet that takes the place of another one and is the same consumer. -/
theorem WellFormed.putChainlet (h : reg.WellFormed) {c c' : Chainlet}
    (hc : reg.chainlets.get? c'.chainId = some c) (hconsumer : c'.consumer? = c.consumer?)
    (hsound : c'.Sound reg.catalog) : (reg.putChainlet c').WellFormed where
  catalog := h.catalog
  chainlets _ _ hd := h.chainlets_insert hsound hd
  waiting chainId consumer hwaiting := by
    obtain ⟨d, hd, hname⟩ := h.waiting chainId consumer hwaiting
    change ∃ e, (reg.chainlets.insert c'.chainId c').get? chainId = some e ∧ _
    rw [OrderedMap.get?_insert]
    split
    next heq =>
      subst heq
      obtain rfl : c = d := Option.some.inj (hc.symm.trans hd)
      exact ⟨c', rfl, hconsumer.trans hname⟩
    next => exact ⟨d, hd, hname⟩
  count := h.count.trans (OrderedMap.length_insert_of_get? hc c').symm
  limit := h.limit

/-- A chainlet that joins, in place of itself. -/
theorem WellFormed.join (h : reg.WellFormed) {c : Chainlet}
    (hc : reg.chainlets.get? c.chainId = some c) (consumer : ConsumerId) :
    ((reg.await c.chainId consumer).putChainlet (c.join consumer)).WellFormed where
  catalog := h.catalog
  chainlets _ _ hd := h.chainlets_insert ((h.chainlets _ c hc).2.join consumer) hd
  waiting chainId consumer' hwaiting := by
    change (reg.waiting.insert c.chainId consumer).get? chainId = some consumer' at hwaiting
    change ∃ e, (reg.chainlets.insert c.chainId (c.join consumer)).get? chainId = some e ∧ _
    rw [OrderedMap.get?_insert] at hwaiting ⊢
    split at hwaiting
    next heq =>
      cases hwaiting
      rw [if_pos heq]
      exact ⟨_, rfl, rfl⟩
    next hne =>
      rw [if_neg hne]
      exact h.waiting chainId consumer' hwaiting
  count := h.count.trans (OrderedMap.length_insert_of_get? hc (c.join consumer)).symm
  limit := h.limit

/-- What a chainlet that waits as a consumer, if it is one, changes is who waits. -/
theorem await?_eq (reg : Registry) (chainId : String) (consumer? : Option ConsumerId) :
    reg.await? chainId consumer? =
      { reg with waiting := (reg.await? chainId consumer?).waiting } := by
  cases consumer? <;> rfl

theorem get?_waiting_await? (reg : Registry) (chainId : String) (consumer? : Option ConsumerId)
    (chainId' : String) : (reg.await? chainId consumer?).waiting.get? chainId' =
      (if chainId' = chainId then consumer? else none).or (reg.waiting.get? chainId') := by
  cases consumer? with
  | none => simp [await?]
  | some consumer =>
    change (reg.waiting.insert chainId consumer).get? chainId' = _
    rw [OrderedMap.get?_insert]
    split <;> rfl

/-- A chainlet that is launched. -/
theorem WellFormed.launch (h : reg.WellFormed) {c : Chainlet} {params : Params}
    (hparams : reg.params? = some params) (hroom : reg.count < params.maxChainlets)
    (hfree : reg.chainlets.get? c.chainId = none) (hsound : c.Sound reg.catalog) :
    (((reg.await? c.chainId c.consumer?).putChainlet c).withCount (reg.count + 1)).WellFormed := by
  have hcount : (reg.count + 1).toNat = reg.count.toNat + 1 := Word.toNat_add_one hroom
  have hwaits := reg.get?_waiting_await? c.chainId c.consumer?
  rw [await?_eq]
  constructor
  · exact h.catalog
  · exact fun _ _ hd => h.chainlets_insert hsound hd
  · intro chainId consumer hget
    change (reg.await? c.chainId c.consumer?).waiting.get? chainId = some consumer at hget
    change ∃ e, (reg.chainlets.insert c.chainId c).get? chainId = some e ∧ _
    rw [hwaits] at hget
    rw [OrderedMap.get?_insert]
    by_cases heq : chainId = c.chainId
    · -- Nobody waits under a chain id that is free.
      have hnobody : reg.waiting.get? c.chainId = none := by
        cases hold : reg.waiting.get? c.chainId with
        | none => rfl
        | some old =>
          obtain ⟨d, hd, -⟩ := h.waiting _ old hold
          rw [hfree] at hd
          cases hd
      rw [if_pos heq, heq, hnobody, Option.or_none] at hget
      exact ⟨c, if_pos heq, hget⟩
    · rw [if_neg heq, Option.none_or] at hget
      rw [if_neg heq]
      exact h.waiting chainId consumer hget
  · change (reg.count + 1).toNat = (reg.chainlets.insert c.chainId c).toList.length
    rw [OrderedMap.length_insert, OrderedMap.contains, hfree, hcount, h.count]
    rfl
  · intro params' hparams'
    obtain rfl : params = params' := Option.some.inj (hparams.symm.trans hparams')
    change (reg.count + 1).toNat ≤ _
    rw [hcount]
    exact UInt64.lt_iff_toNat_lt.1 hroom

theorem WellFormed.init (h : reg.WellFormed) (chainId : String) :
    (reg.init chainId).WellFormed where
  catalog := h.catalog
  chainlets := h.chainlets
  waiting chainId' consumer hwaiting :=
    h.waiting chainId' consumer (OrderedMap.get?_of_get?_erase hwaiting)
  count := h.count
  limit := h.limit

/-- **Each move keeps a registry well-formed.** -/
theorem Move.wellFormed (hmove : reg.Move reg') (h : reg.WellFormed) : reg'.WellFormed := by
  cases hmove with
  | create free wellFormed =>
    refine h.putStack wellFormed fun old hold => ?_
    rw [free] at hold
    cases hold
  | extend held parses apart =>
    refine h.putStack ((h.catalog held).2.addVersion parses apart) fun old hold version => ?_
    obtain rfl : _ = old := Option.some.inj (held.symm.trans hold)
    exact Stack.version?_addVersion
  | disable version held =>
    refine h.putStack ((h.catalog held).2.disable version) fun old hold version' => ?_
    obtain rfl : _ = old := Option.some.inj (held.symm.trans hold)
    exact Stack.version?_disable
  | launch given room free sound => exact h.launch given room free sound
  | join consumer held alone => exact h.join held consumer
  | turn held turn =>
    refine h.putChainlet (by rw [turn.chainId_eq, held]) turn.consumer?_eq ?_
    exact turn.sound (h.chainlets _ _ held).2
  | init chainId => exact h.init chainId

theorem Moves.wellFormed (hmoves : reg.Moves reg') (h : reg.WellFormed) : reg'.WellFormed := by
  induction hmoves with
  | refl => exact h
  | tail _ hmove ih => exact hmove.wellFormed ih

theorem Moves.refl (reg : Registry) : reg.Moves reg := Relation.ReflTransGen.refl

theorem Moves.trans (h : reg.Moves reg') (h' : reg'.Moves reg'') : reg.Moves reg'' :=
  Relation.ReflTransGen.trans h h'

theorem Move.moves (h : reg.Move reg') : reg.Moves reg' := Relation.ReflTransGen.single h

end Registry

end Chainlets
