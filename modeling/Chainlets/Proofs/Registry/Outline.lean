import Chainlets.Proofs.Registry.Acts
import Chainlets.Proofs.Registry.Genesis
import Mathlib.Logic.Function.Basic

/-!
# What events tell

Whoever listens to events can keep an outline of the registry: the versions of each stack and
whether they are enabled; of each chainlet its stack, version, status and pending upgrade, and its
name as a consumer; and which consumers wait. Reading an event changes the outline, and nothing else
does. An event that does not fit what is known is not legal, and then there is no outline any more.

The events of an act take the outline of the registry before to that of the registry after. So they
are legal, they tell all that the act changes of the outline, and they tell it right.

## Main definitions

* `Outline`, with `Registry.outline` and `Genesis.outline`.
* `Outline.read`, `Outline.replay` — read one event, and any number of them.
* `Outline.ReadFrom` — a state has an outline.

## Main results

* `Registry.Act.replay`, `Registry.Acts.replay` — **acts are told by their events.**
* `Registry.ShownBy.readFrom` — a state that shows a registry has its outline.
* `Genesis.Checked.outline_registry` — the outline of a genesis state is that of its registry.
-/

namespace Chainlets

/-- What events tell of the versions of a stack: their texts, and whether they are enabled. -/
def Stack.outline (stack : Stack) : List (String × Bool) :=
  stack.versions.map fun v => (v.version, v.enabled)

/-- What events tell of a chainlet, besides its name as a consumer. -/
structure ChainletOutline where
  /-- The name of its stack. -/
  stack : String
  /-- The version that it runs. -/
  version : String
  /-- Whether it is expected to produce blocks. -/
  status : Status
  /-- The breaking upgrade that is under way. -/
  upgrade? : Option PendingUpgrade
deriving DecidableEq, Repr

/-- What events tell of a chainlet. -/
def Chainlet.outline (c : Chainlet) : ChainletOutline := ⟨c.stack, c.version, c.status, c.upgrade?⟩

/-- What events tell of a registry. -/
@[ext]
structure Outline where
  /-- The versions of each stack. -/
  stack? : String → Option (List (String × Bool))
  /-- The chainlets. -/
  chainlet? : String → Option ChainletOutline
  /-- The names of chainlets as consumers. -/
  consumer? : String → Option ConsumerId
  /-- The consumers that wait for their first validators. -/
  waiting? : String → Option ConsumerId

namespace Outline

/-- The outline with the versions of a stack. -/
def putStack (o : Outline) (name : String) (versions : List (String × Bool)) : Outline :=
  { o with stack? := Function.update o.stack? name (some versions) }

/-- The outline with a chainlet. -/
def putChainlet (o : Outline) (chainId : String) (c : ChainletOutline) : Outline :=
  { o with chainlet? := Function.update o.chainlet? chainId (some c) }

/-- The outline with a chainlet that joined as a consumer and waits. -/
def join (o : Outline) (chainId : String) (consumer : ConsumerId) : Outline :=
  { o with
    consumer? := Function.update o.consumer? chainId (some consumer)
    waiting? := Function.update o.waiting? chainId (some consumer) }

/-- The outline with a chainlet that does not wait any more. -/
def init (o : Outline) (chainId : String) : Outline :=
  { o with waiting? := Function.update o.waiting? chainId none }

theorem putStack_putStack (o : Outline) (name : String)
    (versions versions' : List (String × Bool)) :
    (o.putStack name versions).putStack name versions' = o.putStack name versions' :=
  Outline.ext (Function.update_idem ..) rfl rfl rfl

/-- Whether a stack has a version that is enabled. -/
def offers (o : Outline) (stack version : String) : Bool :=
  match o.stack? stack with
  | some versions => versions.contains (version, true)
  | none => false

/-- A chainlet that goes from one status to the other. -/
def turn (o : Outline) (chainId : String) (source target : Status) : Option Outline :=
  (o.chainlet? chainId).bind fun c =>
    if c.status = source then some (o.putChainlet chainId { c with status := target }) else none

/-- Read an event. One that does not fit what is known is not legal. -/
def read (o : Outline) : Event → Option Outline
  -- A stack is new, and its first version is told right after it.
  | .createStack stack _ =>
    if o.stack? stack = none then some (o.putStack stack []) else none
  | .addStackVersion stack version _ =>
    (o.stack? stack).bind fun versions =>
      if version ∉ versions.map Prod.fst then
        some (o.putStack stack (versions ++ [(version, true)]))
      else none
  | .disableStackVersion stack version =>
    (o.stack? stack).bind fun versions =>
      if (version, true) ∈ versions then
        some (o.putStack stack (versions.map fun e => if e.1 = version then (e.1, false) else e))
      else none
  -- A chainlet is new, and its version is enabled.
  | .launchChainlet chainId stack version _ _ =>
    if o.chainlet? chainId = none ∧ o.offers stack version = true then
      some (o.putChainlet chainId ⟨stack, version, .online, none⟩)
    else none
  | .stopChainlet chainId => o.turn chainId .online .offline
  | .startChainlet chainId => o.turn chainId .offline .online
  -- A chainlet leaves the version that it runs for another one that is enabled.
  | .upgradeChainlet chainId source target _ =>
    (o.chainlet? chainId).bind fun c =>
      if c.version = source ∧ c.upgrade? = none ∧ target ≠ source ∧
          o.offers c.stack target = true then
        some (o.putChainlet chainId { c with version := target })
      else none
  -- Nothing is pending, and the plan is that of the two versions.
  | .scheduleUpgrade chainId plan target height channel _ _ =>
    (o.chainlet? chainId).bind fun c =>
      if c.upgrade? = none ∧ (o.consumer? chainId).isSome = true ∧
          o.offers c.stack target = true ∧ Upgrade.planName c.version target = .ok plan then
        some (o.putChainlet chainId { c with upgrade? := some ⟨target, height, channel⟩ })
      else none
  -- What is settled is the upgrade that is pending.
  | .completeUpgrade chainId version _ =>
    (o.chainlet? chainId).bind fun c =>
      if c.upgrade?.map (·.targetVersion) = some version then
        some (o.putChainlet chainId { c with version, upgrade? := none })
      else none
  | .cancelUpgrade chainId target _ =>
    (o.chainlet? chainId).bind fun c =>
      if c.upgrade?.map (·.targetVersion) = some target then
        some (o.putChainlet chainId { c with upgrade? := none })
      else none
  | .requestCancelUpgrade chainId plan channel _ _ =>
    (o.chainlet? chainId).bind fun c => c.upgrade?.bind fun upgrade =>
      if upgrade.channel = channel ∧
          Upgrade.planName c.version upgrade.targetVersion = .ok plan then some o
      else none
  | .ignorePacket chainId _ _ => if (o.chainlet? chainId).isSome then some o else none
  -- A chainlet becomes a consumer once.
  | .registerConsumer chainId consumer =>
    if o.consumer? chainId = none then some (o.join chainId consumer) else none
  | .initConsumer chainId consumer _ =>
    if o.waiting? chainId = some consumer then some (o.init chainId) else none

/-- Read events one after the other. -/
def replay (o : Outline) (events : List Event) : Option Outline := events.foldlM read o

@[simp]
theorem replay_nil (o : Outline) : o.replay [] = some o := rfl

@[simp]
theorem replay_cons (o : Outline) (event : Event) (events : List Event) :
    o.replay (event :: events) = (o.read event).bind fun o' => o'.replay events := rfl

theorem replay_append (o : Outline) (events more : List Event) :
    o.replay (events ++ more) = (o.replay events).bind fun o' => o'.replay more :=
  List.foldlM_append

/-- A state has an outline. -/
structure ReadFrom {κ : Type} [Readable κ] (o : Outline) (r : κ) : Prop where
  stack : ∀ name, (Readable.stack? r name).map (Option.map Stack.outline) = .ok (o.stack? name)
  chainlet : ∀ chainId,
    (Readable.chainlet? r chainId).map (Option.map Chainlet.outline) = .ok (o.chainlet? chainId)
  consumer : ∀ chainId,
    (Readable.chainlet? r chainId).map (Option.bind · (·.consumer?)) = .ok (o.consumer? chainId)
  waiting : ∀ chainId, Readable.pendingInit? r chainId = .ok (o.waiting? chainId)

end Outline

/-! ### Outlines of registries -/

namespace Registry

/-- The outline of a registry. -/
def outline (reg : Registry) : Outline where
  stack? name := (reg.catalog.get? name).map Stack.outline
  chainlet? chainId := (reg.chainlets.get? chainId).map Chainlet.outline
  consumer? chainId := (reg.chainlets.get? chainId).bind (·.consumer?)
  waiting? chainId := reg.waiting.get? chainId

/-- A state that shows a registry has its outline. -/
theorem ShownBy.readFrom {κ : Type} [Readable κ] {r : κ} {reg : Registry} (h : reg.ShownBy r) :
    reg.outline.ReadFrom r where
  stack name := by
    have hread : Readable.stack? r name = _ := h.catalog.read? name
    rw [hread]
    rfl
  chainlet chainId := by
    rw [h.chainlet?_eq]
    rfl
  consumer chainId := by
    rw [h.chainlet?_eq]
    rfl
  waiting := h.waiting.read?

variable {reg : Registry}

theorem stack?_outline {stack : Stack} (held : reg.catalog.get? stack.name = some stack) :
    reg.outline.stack? stack.name = some stack.outline :=
  congrArg (Option.map Stack.outline) held

theorem chainlet?_outline {c : Chainlet} (held : reg.chainlets.get? c.chainId = some c) :
    reg.outline.chainlet? c.chainId = some c.outline :=
  congrArg (Option.map Chainlet.outline) held

theorem consumer?_outline {c : Chainlet} (held : reg.chainlets.get? c.chainId = some c) :
    reg.outline.consumer? c.chainId = c.consumer? := by
  change (reg.chainlets.get? c.chainId).bind _ = _
  rw [held]
  rfl

/-- A lookup in a map of outlines after something was inserted. -/
theorem map_get?_insert {α β : Type} (m : OrderedMap String α) (k : String) (v : α) (f : α → β) :
    (fun k' => ((m.insert k v).get? k').map f) =
      Function.update (fun k' => (m.get? k').map f) k (some (f v)) := by
  funext k'
  rw [OrderedMap.get?_insert, Function.update_apply]
  split <;> rfl

theorem outline_putStack (reg : Registry) (stack : Stack) :
    (reg.putStack stack).outline = reg.outline.putStack stack.name stack.outline :=
  Outline.ext (map_get?_insert ..) rfl rfl rfl

theorem outline_init (reg : Registry) (chainId : String) :
    (reg.init chainId).outline = reg.outline.init chainId := by
  refine Outline.ext rfl rfl rfl (funext fun chainId' => ?_)
  change (reg.waiting.erase chainId).get? chainId' =
    Function.update reg.outline.waiting? chainId none chainId'
  rw [OrderedMap.get?_erase, Function.update_apply]
  rfl

/-- A chainlet is written that is the same consumer as before. -/
theorem outline_putChainlet {c : Chainlet}
    (hconsumer : reg.outline.consumer? c.chainId = c.consumer?) :
    (reg.putChainlet c).outline = reg.outline.putChainlet c.chainId c.outline := by
  refine Outline.ext rfl (map_get?_insert ..) (funext fun chainId => ?_) rfl
  change ((reg.chainlets.insert c.chainId c).get? chainId).bind _ = reg.outline.consumer? chainId
  rw [OrderedMap.get?_insert]
  split
  next heq => rw [heq, hconsumer]; rfl
  next => rfl

/-- A chainlet is written that has just joined as a consumer. -/
theorem outline_putChainlet_await {c : Chainlet} {consumer : ConsumerId}
    (hconsumer : c.consumer? = some consumer) :
    ((reg.await c.chainId consumer).putChainlet c).outline =
      (reg.outline.join c.chainId consumer).putChainlet c.chainId c.outline := by
  refine Outline.ext rfl (map_get?_insert ..) (funext fun chainId => ?_) (funext fun chainId => ?_)
  · change ((reg.chainlets.insert c.chainId c).get? chainId).bind _ =
      Function.update reg.outline.consumer? c.chainId (some consumer) chainId
    rw [OrderedMap.get?_insert, Function.update_apply]
    split
    · exact hconsumer
    · rfl
  · change (reg.waiting.insert c.chainId consumer).get? chainId =
      Function.update reg.outline.waiting? c.chainId (some consumer) chainId
    rw [OrderedMap.get?_insert, Function.update_apply]
    rfl

/-! ### Acts are told by their events -/

theorem offers_outline {stack version : String} (h : Catalog.Enables reg.catalog stack version) :
    reg.outline.offers stack version = true := by
  obtain ⟨found, v, hfound, hv⟩ := h
  obtain ⟨hv, henabled⟩ := Option.filter_eq_some_iff.1 hv
  have hstack : reg.outline.stack? stack = some found.outline :=
    congrArg (Option.map Stack.outline) hfound
  rw [Outline.offers, hstack]
  have hversion : v.version = version := by simpa using List.find?_some hv
  refine List.contains_iff_mem.2 (List.mem_map.2 ⟨v, List.mem_of_find?_eq_some hv, ?_⟩)
  rw [hversion, henabled]

/-- A chainlet is written after it joined, if it did. That it joined is told first, and it was no
consumer then. -/
theorem replay_joining {chainId : String} {c : Chainlet} (hid : c.chainId = chainId)
    {consumer? : Option ConsumerId} {event : Event}
    (hconsumer : c.consumer? = consumer?.or (reg.outline.consumer? chainId))
    (halone : consumer?.isSome = true → reg.outline.consumer? chainId = none)
    (hread : ∀ o : Outline, o.stack? = reg.outline.stack? → o.chainlet? = reg.outline.chainlet? →
      o.consumer? chainId = c.consumer? → o.read event = some (o.putChainlet chainId c.outline)) :
    reg.outline.replay (Event.joining chainId consumer? ++ [event]) =
      some ((reg.await? chainId consumer?).putChainlet c).outline := by
  subst hid
  cases consumer? with
  | none =>
    have hsame : reg.outline.consumer? c.chainId = c.consumer? := hconsumer.symm
    change (reg.outline.read event).bind some = _
    rw [hread _ rfl rfl hsame]
    exact congrArg some (outline_putChainlet hsame).symm
  | some consumer =>
    have hjoined : c.consumer? = some consumer := hconsumer
    have hjoins : reg.outline.read (.registerConsumer c.chainId consumer) =
        some (reg.outline.join c.chainId consumer) := if_pos (halone rfl)
    change (reg.outline.read (.registerConsumer c.chainId consumer)).bind
      (fun o => (o.read event).bind some) = _
    have hconsumer : (reg.outline.join c.chainId consumer).consumer? c.chainId = c.consumer? :=
      (Function.update_self ..).trans hjoined.symm
    rw [hjoins, Option.bind_some, hread (reg.outline.join c.chainId consumer) rfl rfl hconsumer]
    exact congrArg some (outline_putChainlet_await hjoined).symm

theorem outline_addVersion {stack : Stack} {v : StackVersion} (henabled : v.enabled = true) :
    (stack.addVersion v).outline = stack.outline ++ [(v.version, true)] := by
  rw [← henabled]
  exact List.map_append

/-- The versions of a stack have different texts, so the one that is disabled is the only one with
its text. -/
theorem outline_disable {stack : Stack} (h : stack.WellFormed) (version : String) :
    (stack.disable version).outline =
      stack.outline.map fun e => if e.1 = version then (e.1, false) else e := by
  have hapart := h.apart
  change (Stack.disableFirst version stack.versions).map _ = (stack.versions.map _).map _
  generalize stack.versions = l at hapart
  induction l with
  | nil => rfl
  | cons v l ih =>
    rw [Stack.disableFirst, List.map_cons, List.map_cons]
    by_cases hv : v.version = version
    · have hothers : ∀ w ∈ l, w.version ≠ version := fun w hw heq =>
        List.rel_of_pairwise_cons hapart hw (.inr (.inl (hv.trans heq.symm)))
      rw [if_pos hv, List.map_cons, if_pos hv, List.map_map]
      exact congrArg _ (List.map_congr_left fun w hw => (if_neg (hothers w hw)).symm)
    · rw [if_neg hv, List.map_cons, if_neg hv, ih hapart.of_cons]

/-- **An act is told by its events**: they are legal, and take the outline of the registry before to
that of the registry after. -/
theorem Act.replay {reg' : Registry} {events : List Event} (h : reg.Act events reg')
    (hreg : reg.WellFormed) : reg.outline.replay events = some reg'.outline := by
  have hsound {c : Chainlet} (held : reg.chainlets.get? c.chainId = some c) : c.Sound reg.catalog :=
    (hreg.chainlets _ _ held).2
  have hunnamed {c : Chainlet} (held : reg.chainlets.get? c.chainId = some c)
      (halone : c.isConsumer = false) : reg.outline.consumer? c.chainId = none := by
    rw [consumer?_outline held, ← Option.not_isSome_iff_eq_none, ← (hsound held).consumer, halone]
    exact Bool.false_ne_true
  have hoffers {o : Outline} (ho : o.stack? = reg.outline.stack?) {stack version : String}
      (henabled : Catalog.Enables reg.catalog stack version) : o.offers stack version = true := by
    rw [Outline.offers, ho]
    exact offers_outline henabled
  have htarget {c : Chainlet} {upgrade : PendingUpgrade} (hpending : c.upgrade? = some upgrade) :
      c.outline.upgrade?.map (·.targetVersion) = some upgrade.targetVersion :=
    congrArg (Option.map (·.targetVersion)) hpending
  cases h with
  | @create stack v _ creator given free single enabled parses =>
    have houtline : stack.outline = [] ++ [(v.version, true)] := by
      rw [Stack.outline, single, ← enabled]
      rfl
    have hfree : reg.outline.stack? stack.name = none := congrArg (Option.map Stack.outline) free
    have hcreates : reg.outline.read (.createStack stack.name creator) =
        some (reg.outline.putStack stack.name []) := if_pos hfree
    have hheld : (reg.outline.putStack stack.name []).stack? stack.name = some [] :=
      Function.update_self ..
    rw [outline_putStack, houtline, ← Outline.putStack_putStack _ _ [], Outline.replay_cons,
      hcreates, Option.bind_some, Outline.replay_cons, Outline.read, hheld]
    rfl
  | @extend stack v held enabled parses apart =>
    have hnew : v.version ∉ stack.outline.map Prod.fst := by
      intro hmem
      obtain ⟨e, he, heq⟩ := List.mem_map.1 hmem
      obtain ⟨w, hw, rfl⟩ := List.mem_map.1 he
      exact apart w hw (.inr (.inl heq))
    rw [Outline.replay_cons, Outline.read, stack?_outline held, Option.bind_some, if_pos hnew,
      outline_putStack, outline_addVersion enabled]
    rfl
  | @disable stack version v held enabled =>
    have hmem : (version, true) ∈ stack.outline := by
      obtain ⟨hv, henabled⟩ := Option.filter_eq_some_iff.1 enabled
      have hversion : v.version = version := by simpa using List.find?_some hv
      refine List.mem_map.2 ⟨v, List.mem_of_find?_eq_some hv, ?_⟩
      rw [hversion, henabled]
    rw [Outline.replay_cons, Outline.read, stack?_outline held, Option.bind_some, if_pos hmem,
      outline_putStack, outline_disable (hreg.catalog held).2]
    rfl
  | @launch c _ feeDenom? given room free sound enabled online idle =>
    have hfree : reg.outline.chainlet? c.chainId = none :=
      congrArg (Option.map Chainlet.outline) free
    have hunknown : reg.outline.consumer? c.chainId = none := by
      change (reg.chainlets.get? c.chainId).bind _ = none
      rw [free]
      rfl
    have houtline : c.outline = ⟨c.stack, c.version, .online, none⟩ := by
      rw [Chainlet.outline, online, idle]
    refine replay_joining rfl (by rw [hunknown, Option.or_none]) (fun _ => hunknown) ?_
    intro o hstacks hchainlets _
    rw [houtline]
    exact if_pos ⟨by rw [hchainlets, hfree], hoffers hstacks enabled⟩
  | @status c status held changes =>
    have hsame : reg.outline.consumer? c.chainId = c.consumer? := consumer?_outline held
    rw [outline_putChainlet (c := { c with status }) hsame, Event.ofStatus.eq_def]
    have hturn {source target : Status} (hnow : c.outline.status = source) :
        reg.outline.turn c.chainId source target =
          some (reg.outline.putChainlet c.chainId { c.outline with status := target }) := by
      rw [Outline.turn, chainlet?_outline held, Option.bind_some, if_pos hnow]
    cases hnow : c.status <;> cases status
    · exact absurd hnow changes
    · rw [Outline.replay_cons, Outline.read, hturn hnow]
      rfl
    · rw [Outline.replay_cons, Outline.read, hturn hnow]
      rfl
    · exact absurd hnow changes
  | @upgrade c version consumer? automatic held idle alone enabled other compatible =>
    refine replay_joining (c := { c.join? consumer? with version }) (c.chainId_join? consumer?) ?_
      (fun hsome => hunnamed held (alone hsome)) ?_
    · rw [consumer?_outline held]
      cases consumer? <;> rfl
    · intro o hstacks hchainlets _
      rw [Outline.read, hchainlets, chainlet?_outline held, Option.bind_some,
        if_pos ⟨rfl, idle, other, hoffers hstacks enabled⟩]
      cases consumer? <;> rfl
  | @schedule c upgrade plan consumer? sequence commitment held idle alone consumer enabled breaking
      named =>
    refine replay_joining (c := { c.join? consumer? with upgrade? := some upgrade })
      (c.chainId_join? consumer?) ?_ (fun hsome => hunnamed held (alone hsome)) ?_
    · rw [consumer?_outline held]
      cases consumer? <;> rfl
    · intro o hstacks hchainlets hconsumer
      have hnamed : (o.consumer? c.chainId).isSome = true := by
        rw [hconsumer]
        cases consumer? with
        | none => exact (hsound held).consumer.1 consumer
        | some _ => rfl
      rw [Outline.read, hchainlets, chainlet?_outline held, Option.bind_some,
        if_pos ⟨idle, hnamed, hoffers hstacks enabled, named⟩]
      cases consumer? <;> rfl
  | requestCancel sequence commitment held pending named =>
    rw [Outline.replay_cons, Outline.read, chainlet?_outline held, Option.bind_some,
      Chainlet.outline, pending, Option.bind_some, if_pos ⟨rfl, named⟩]
    rfl
  | ignore plan reason held =>
    rw [Outline.replay_cons, Outline.read, chainlet?_outline held]
    rfl
  | @giveUp c upgrade reason held pending =>
    have hsame : reg.outline.consumer? c.chainId = c.consumer? := consumer?_outline held
    rw [Outline.replay_cons, Outline.read, chainlet?_outline held, Option.bind_some,
      if_pos (htarget pending),
      outline_putChainlet (c := { c with upgrade? := none }) hsame]
    rfl
  | @complete c upgrade height held pending =>
    have hsame : reg.outline.consumer? c.chainId = c.consumer? := consumer?_outline held
    rw [Outline.replay_cons, Outline.read, chainlet?_outline held, Option.bind_some,
      if_pos (htarget pending),
      outline_putChainlet
        (c := { c with version := upgrade.targetVersion, upgrade? := none }) hsame]
    rfl
  | @init chainId consumer channel waits =>
    have hwaits : reg.outline.waiting? chainId = some consumer := waits
    rw [Outline.replay_cons, Outline.read, if_pos hwaits, outline_init]
    rfl

/-- **Acts are told by their events.** -/
theorem Acts.replay {reg' : Registry} {events : List Event} (h : reg.Acts events reg')
    (hreg : reg.WellFormed) : reg.outline.replay events = some reg'.outline := by
  induction h with
  | refl => rfl
  | tail acts act ih =>
    rw [Outline.replay_append, ih, Option.bind_some]
    exact act.replay (acts.wellFormed hreg)

end Registry

/-! ### The outline of a genesis state -/

namespace Genesis

/-- The outline of a genesis state. Nobody waits in it. -/
def outline (genesis : Genesis) : Outline where
  stack? name := (genesis.catalog.find? fun stack => stack.name = name).map Stack.outline
  chainlet? chainId :=
    (genesis.chainlets.find? fun c => c.chainId = chainId).map Chainlet.outline
  consumer? chainId := (genesis.chainlets.find? fun c => c.chainId = chainId).bind (·.consumer?)
  waiting? _ := none

/-- A value in a list whose values have keys of their own is filed under its key. -/
theorem get?_fileBy {β : Type} {f : β → String} {l : List β}
    (h : l.Pairwise fun a b => f a ≠ f b) (k : String) :
    (OrderedMap.fileBy f l).get? k = l.find? fun b => f b = k := by
  cases hfind : l.find? fun b => f b = k with
  | some b =>
    refine (OrderedMap.get?_fileBy_eq_some_iff h).2 ⟨List.mem_of_find?_eq_some hfind, ?_⟩
    simpa using List.find?_some hfind
  | none =>
    rw [List.find?_eq_none] at hfind
    refine Option.eq_none_iff_forall_ne_some.2 fun b hb => ?_
    obtain ⟨hmem, hkey⟩ := (OrderedMap.get?_fileBy_eq_some_iff h).1 hb
    exact hfind b hmem (decide_eq_true hkey)

/-- **The outline of a genesis state is that of its registry**, if the state passes its check. -/
theorem Checked.outline_registry {genesis : Genesis} (h : genesis.Checked) :
    genesis.registry.outline = genesis.outline := by
  refine Outline.ext (funext fun name => ?_) (funext fun chainId => ?_)
    (funext fun chainId => ?_) rfl
  · exact congrArg (Option.map Stack.outline) (get?_fileBy h.names name)
  · exact congrArg (Option.map Chainlet.outline) (get?_fileBy h.chainIds chainId)
  · exact congrArg (Option.bind · (·.consumer?)) (get?_fileBy h.chainIds chainId)

end Genesis

end Chainlets
