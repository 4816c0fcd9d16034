import Chainlets.Proofs.Registry.Acts
import Chainlets.Proofs.Registry.Lanes

/-!
# Grounded registries

A chainlet runs a version that its stack has. The only way in which it could come to run one that
the stack does not have is a pending upgrade, whose target version is written over its own when a
callback completes the upgrade. When an upgrade is requested its target has to be there, but the
check of a genesis state does not look at targets. So a registry is *grounded* if every chainlet
runs a version that is there, and the target of every pending upgrade is there too, or is out of
reach for callbacks.

Two kinds of pending upgrades are out of reach. No channel leads to a chainlet that is not
registered as a consumer, so no callback about it is accepted. And a confirmation never comes over a
channel with a blank name, so an upgrade that was negotiated over such a channel is never completed;
other callbacks then read the target version, but do not write it.

An act that completes an upgrade does not tell over which channel that came about. But a request
that is no callback leaves pending upgrades alone. So acts are looked at on chainlets without a
pending upgrade, and the others keep their records.

## Main definitions

* `Chainlet.OutOfReach`, `Chainlet.Grounded`, `Registry.Grounded`.
* `Registry.Anchors` — a chain id is grounded and nothing is out of reach there.
* `Registry.KeepsPending` — records with a pending upgrade stay, but for the status.

## Main results

* `Registry.Acts.anchors` — **acts keep a chain id anchored.**
* `Operation.ofMessage_keepsPending`, `Operation.beginBlock_keepsPending` — requests that keep
  pending upgrades.
* `Registry.Grounded.of_acts` — **requests that are no callbacks keep a registry grounded.**
* `Callback.Reaches.grounded` — **and so do callbacks.**
-/

namespace Chainlets

open Execution Handshake

variable {reg reg' : Registry} {catalog catalog' : Catalog} {c : Chainlet} {events : List Event}
  {chainId : String}

/-- No callback completes a pending upgrade of the chainlet or fails to make out its target. -/
def Chainlet.OutOfReach (c : Chainlet) (upgrade : PendingUpgrade) : Prop :=
  c.consumer? = none ∨
    (∃ p, Version.parse upgrade.targetVersion = .ok p) ∧ Blank.isBlankText upgrade.channel = true

/-- A chainlet runs a version of its stack, and is not about to run one that is none. -/
structure Chainlet.Grounded (catalog : Catalog) (c : Chainlet) : Prop where
  registered : Catalog.Registers catalog c.stack c.version
  upgrade : ∀ upgrade, c.upgrade? = some upgrade →
    Catalog.Registers catalog c.stack upgrade.targetVersion ∨ c.OutOfReach upgrade

/-- Every chainlet is grounded. -/
def Registry.Grounded (reg : Registry) : Prop :=
  ∀ chainId c, reg.chainlets.get? chainId = some c → c.Grounded reg.catalog

theorem Registry.grounded_empty : Registry.empty.Grounded := nofun

theorem Chainlet.Grounded.mono (h : c.Grounded catalog)
    (hkeeps : ∀ {stack version}, Catalog.Registers catalog stack version →
      Catalog.Registers catalog' stack version) : c.Grounded catalog' where
  registered := hkeeps h.registered
  upgrade upgrade hpending := (h.upgrade upgrade hpending).imp_left hkeeps

/-- The plan name of a pending upgrade of a grounded consumer can be made out. -/
theorem Chainlet.Grounded.exists_planName (h : c.Grounded catalog)
    (hcatalog : Catalog.WellFormed catalog) (hconsumer : c.consumer? ≠ none)
    {upgrade : PendingUpgrade} (hpending : c.upgrade? = some upgrade) :
    ∃ plan, Upgrade.planName c.version upgrade.targetVersion = .ok plan := by
  obtain ⟨p, hp⟩ := h.registered.parses hcatalog
  obtain ⟨q, hq⟩ : ∃ q, Version.parse upgrade.targetVersion = .ok q := by
    rcases h.upgrade upgrade hpending with hregistered | hunlent | ⟨hparses, -⟩
    · exact hregistered.parses hcatalog
    · exact absurd hunlent hconsumer
    · exact hparses
  exact ⟨_, Upgrade.planName_eq_ok_iff.2 ⟨p.series, q.series, ⟨p, hp, rfl⟩, ⟨q, hq, rfl⟩, rfl⟩⟩

/-- A record may be written if it is grounded. -/
theorem Registry.Grounded.putChainlet (h : reg.Grounded) (hc : c.Grounded reg.catalog) :
    (reg.putChainlet c).Grounded := by
  intro chainId d hd
  rcases OrderedMap.get?_insert_cases hd with ⟨-, rfl⟩ | hd
  · exact hc
  · exact h chainId d hd

/-! ### Acts -/

namespace Registry

/-- **No act takes a version away.** -/
theorem Act.registers (h : reg.Act events reg') {stack version : String}
    (hregisters : Catalog.Registers reg.catalog stack version) :
    Catalog.Registers reg'.catalog stack version := by
  cases h with
  | create creator given free =>
    refine hregisters.insert fun old hold => ?_
    rw [free] at hold
    cases hold
  | extend held =>
    refine hregisters.insert fun old hold version => ?_
    obtain rfl : _ = old := Option.some.inj (held.symm.trans hold)
    exact Stack.version?_addVersion
  | disable held =>
    refine hregisters.insert fun old hold version => ?_
    obtain rfl : _ = old := Option.some.inj (held.symm.trans hold)
    exact Stack.version?_disable
  | launch => exact (catalog_await? reg _ _).symm ▸ hregisters
  | upgrade => exact (catalog_await? reg _ _).symm ▸ hregisters
  | schedule => exact (catalog_await? reg _ _).symm ▸ hregisters
  | _ => exact hregisters

theorem Acts.registers (h : reg.Acts events reg') {stack version : String}
    (hregisters : Catalog.Registers reg.catalog stack version) :
    Catalog.Registers reg'.catalog stack version := by
  induction h with
  | refl => exact hregisters
  | tail _ act ih => exact act.registers ih

/-- What the chainlet with a chain id runs is there, and so is the target of its pending upgrade. -/
def Anchors (reg : Registry) (chainId : String) : Prop :=
  ∀ c, reg.chainlets.get? chainId = some c → Catalog.Registers reg.catalog c.stack c.version ∧
    ∀ upgrade, c.upgrade? = some upgrade →
      Catalog.Registers reg.catalog c.stack upgrade.targetVersion

theorem Anchors.of_await? {other : String} {consumer? : Option ConsumerId}
    (h : reg.Anchors chainId) : (reg.await? other consumer?).Anchors chainId := by
  rwa [Anchors, chainlets_await?, catalog_await?]

/-- A record that is written over that of an anchored chainlet has to be in order only if it is its
own. -/
theorem Anchors.putChainlet (h : reg.Anchors chainId) {d : Chainlet}
    (hd : chainId = d.chainId → Catalog.Registers reg.catalog d.stack d.version ∧
      ∀ upgrade, d.upgrade? = some upgrade →
        Catalog.Registers reg.catalog d.stack upgrade.targetVersion) :
    (reg.putChainlet d).Anchors chainId := by
  intro c hc
  rcases OrderedMap.get?_insert_cases hc with ⟨hid, rfl⟩ | hc
  · exact hd hid
  · exact h c hc

theorem Act.anchors (h : reg.Act events reg') (hanchors : reg.Anchors chainId) :
    reg'.Anchors chainId := by
  have hmono (hchainlets : reg'.chainlets = reg.chainlets) : reg'.Anchors chainId := by
    intro c hc
    rw [hchainlets] at hc
    exact ⟨h.registers (hanchors c hc).1, fun upgrade hpending =>
      h.registers ((hanchors c hc).2 upgrade hpending)⟩
  cases h with
  | create => exact hmono rfl
  | extend => exact hmono rfl
  | disable => exact hmono rfl
  | launch feeDenom? given room free sound enabled online idle =>
    refine Anchors.putChainlet hanchors.of_await? fun _ => ?_
    rw [catalog_await?, idle]
    exact ⟨sound.registered, nofun⟩
  | status held changes =>
    refine hanchors.putChainlet ?_
    rintro rfl
    exact ⟨(hanchors _ held).1, (hanchors _ held).2⟩
  | upgrade automatic held idle alone enabled other compatible =>
    refine Anchors.putChainlet hanchors.of_await? fun _ => ?_
    rw [catalog_await?, Chainlet.stack_join?, Chainlet.upgrade?_join?, idle]
    exact ⟨enabled.registers, nofun⟩
  | schedule sequence commitment held idle alone consumer enabled =>
    refine Anchors.putChainlet hanchors.of_await? fun hid => ?_
    rw [Chainlet.chainId_join?] at hid
    subst hid
    rw [catalog_await?, Chainlet.stack_join?, Chainlet.version_join?]
    refine ⟨(hanchors _ held).1, ?_⟩
    rintro _ ⟨⟩
    exact enabled.registers
  | requestCancel => exact hanchors
  | ignore => exact hanchors
  | giveUp reason held pending =>
    refine hanchors.putChainlet ?_
    rintro rfl
    exact ⟨(hanchors _ held).1, nofun⟩
  | complete height held pending =>
    refine hanchors.putChainlet ?_
    rintro rfl
    exact ⟨(hanchors _ held).2 _ pending, nofun⟩
  | init => exact hanchors

/-- **Acts keep a chain id anchored.** -/
theorem Acts.anchors (h : reg.Acts events reg') (hanchors : reg.Anchors chainId) :
    reg'.Anchors chainId := by
  induction h with
  | refl => exact hanchors
  | tail _ act ih => exact act.anchors ih

/-! ### Pending upgrades stay -/

/-- A chainlet with a pending upgrade keeps its record, but for the status. -/
def KeepsPending (reg reg' : Registry) : Prop :=
  ∀ chainId c, reg.chainlets.get? chainId = some c → c.upgrade?.isSome = true →
    ∃ status, reg'.chainlets.get? chainId = some { c with status }

namespace KeepsPending

theorem of_eq (h : ∀ chainId c, reg.chainlets.get? chainId = some c → c.upgrade?.isSome = true →
    reg'.chainlets.get? chainId = reg.chainlets.get? chainId) : reg.KeepsPending reg' :=
  fun chainId c hc hpending => ⟨c.status, (h chainId c hc hpending).trans hc⟩

theorem refl (reg : Registry) : reg.KeepsPending reg := .of_eq fun _ _ _ _ => rfl

/-- What is confined to a chainlet without a pending upgrade. -/
theorem of_confined {markers : String → Prop} (h : reg.Confined (· = chainId) markers reg')
    (hidle : ∀ c, reg.chainlets.get? chainId = some c → c.upgrade? = none) :
    reg.KeepsPending reg' := by
  refine .of_eq fun other c hc hpending => h.chainlets ?_
  rintro rfl
  rw [hidle c hc] at hpending
  cases hpending

end KeepsPending

/-- **Requests that are no callbacks keep a registry grounded**: they act, and keep pending
upgrades. -/
theorem Grounded.of_acts (h : reg.Grounded) (hacts : reg.Acts events reg')
    (hkeeps : reg.KeepsPending reg') : reg'.Grounded := by
  intro chainId c' hc'
  have hanchored (hanchors : reg.Anchors chainId) : c'.Grounded reg'.catalog := by
    obtain ⟨hregistered, hupgrade⟩ := hacts.anchors hanchors c' hc'
    exact ⟨hregistered, fun upgrade hpending => .inl (hupgrade upgrade hpending)⟩
  cases hc : reg.chainlets.get? chainId with
  | none => exact hanchored fun c hsome => by rw [hc] at hsome; cases hsome
  | some c =>
    have hgrounded := h chainId c hc
    cases hpending : c.upgrade? with
    | none =>
      refine hanchored fun d hd => ?_
      obtain rfl : c = d := Option.some.inj (hc.symm.trans hd)
      rw [hpending]
      exact ⟨hgrounded.registered, nofun⟩
    | some upgrade =>
      obtain ⟨status, hkept⟩ := hkeeps chainId c hc (by rw [hpending]; rfl)
      obtain rfl : _ = c' := Option.some.inj (hkept.symm.trans hc')
      exact (⟨hgrounded.registered, hgrounded.upgrade⟩ :
        Chainlet.Grounded reg.catalog { c with status }).mono hacts.registers

end Registry

namespace Operation

variable {ω : Type}

theorem ofMessage_keepsPending (hreg : reg.Filed) (msg : Message) :
    (ofMessage msg : Execution ω Unit).Ensures reg fun _ => reg.KeepsPending := by
  have hstacks {reg' : Registry} (h : reg' = { reg with catalog := reg'.catalog }) :
      reg.KeepsPending reg' := .of_eq fun _ _ _ _ => by rw [h]
  cases msg with
  | createStack msg => exact (createStack_catalog msg).mono fun _ _ => hstacks
  | addVersion msg => exact (addVersion_catalog msg).mono fun _ _ => hstacks
  | disableVersion msg => exact (disableVersion_catalog msg).mono fun _ _ => hstacks
  | launch msg =>
    refine (launch_launches msg).mono ?_
    rintro _ _ ⟨c, count, hid, hfree, rfl⟩
    refine .of_eq fun chainId d hd _ => ?_
    have hne : chainId ≠ c.chainId := by
      rintro rfl
      rw [hid, hfree] at hd
      cases hd
    exact (OrderedMap.get?_insert_of_ne _ _ hne).trans
      (congrArg (·.get? chainId) (Registry.chainlets_await? ..))
  | requestUpgrade msg =>
    refine (confined_requestUpgrade hreg msg).mono ?_
    rintro _ _ ⟨hconfined, c, hc, hidle⟩
    refine .of_confined hconfined fun d hd => ?_
    obtain rfl : c = d := Option.some.inj (hc.symm.trans hd)
    exact hidle
  | cancelUpgrade msg =>
    exact .of_unwritten (unwritten_of_noting (noting_cancelUpgrade msg)) fun _ => .refl reg

theorem setStatus_keepsPending (hreg : reg.Filed) (chainId : String) (status : Status) :
    (setStatus chainId status : Execution ω Bool).Ensures reg fun _ => reg.KeepsPending := by
  refine (setStatus_sets chainId status).mono ?_
  rintro _ _ (rfl | ⟨c, hc, rfl⟩)
  · exact .refl _
  · intro other d hd _
    by_cases hother : other = c.chainId
    · obtain rfl : other = chainId := hother.trans (hreg.chainlets _ _ hc)
      obtain rfl : c = d := Option.some.inj (hc.symm.trans hd)
      exact ⟨status, by rw [hother]; exact OrderedMap.get?_insert_self ..⟩
    · exact ⟨d.status, (OrderedMap.get?_insert_of_ne _ _ hother).trans hd⟩

theorem beginBlock_keepsPending (hreg : reg.Filed) :
    (beginBlock : Execution ω Unit).Ensures reg fun _ => reg.KeepsPending := by
  refine (confined_beginBlock hreg).mono fun _ _ hconfined => .of_eq fun chainId c hc hpending => ?_
  refine hconfined.chainlets ?_
  rintro ⟨d, hd, -, hidle⟩
  obtain rfl : c = d := Option.some.inj (hc.symm.trans hd)
  rw [hidle] at hpending
  cases hpending

end Operation

/-! ### Callbacks -/

/-- A confirmation has to name a valid chain id, and comes over a channel whose name is not
blank. -/
theorem Confirmation.check_eq_ok_iff {msg : Confirmation} :
    msg.check = .ok () ↔
      ChainId.isValid msg.chainId = true ∧ Blank.isBlankText msg.channel = false := by
  rw [Confirmation.check, requireChainId, requireNonBlank]
  cases ChainId.isValid msg.chainId <;> cases Blank.isBlankText msg.channel <;>
    simp [bind, Except.bind]

theorem Callback.Tells.not_blank {cb : Callback} {data : PacketData}
    (h : cb.Tells data .confirmed) : Blank.isBlankText cb.channel = false := by
  cases h with
  | confirmed content checked => exact (Confirmation.check_eq_ok_iff.1 checked).2

/-- What a callback comes upon is not out of its reach, if it completes an upgrade. -/
theorem Callback.Reaches.grounded {ω : Type} {cb : Callback} {parent : Parent ω} {world : ω}
    {o : Overlay} {data : PacketData} {news : News} {t : Transition}
    (h : cb.Reaches parent world o data news c t) (hc : c.Grounded catalog) :
    (t.apply c).Grounded catalog := by
  have hgivenUp : Chainlet.Grounded catalog { c with upgrade? := none } := ⟨hc.registered, nofun⟩
  rcases News.transition_cases h.moves with ⟨upgrade, hpending, -, rfl⟩ | ⟨⟨reason, rfl⟩, -⟩
  · cases hnews : news with
    | confirmed =>
      refine ⟨?_, nofun⟩
      rcases hc.upgrade upgrade hpending with hregistered | hunlent | ⟨-, hblank⟩
      · exact hregistered
      · obtain ⟨consumer, -, hlent, -⟩ := h.trusted.leads
        rw [hunlent] at hlent
        cases hlent
      · have htells : cb.Tells data .confirmed := hnews ▸ h.tells
        rw [h.trusted.recorded upgrade hpending, htells.not_blank] at hblank
        cases hblank
    | createAnswered success => cases success <;> assumption
    | createExpired => exact hgivenUp
    | cancelAnswered success => cases success <;> assumption
    | cancelExpired => exact hc
  · exact hc

end Chainlets
