import Chainlets.Proofs.Store.Family
import Chainlets.Proofs.VersionTree.Rebuild

/-!
# Registries

A registry is what the store holds, without keys and bytes: the stacks, the chainlets, the consumers
that wait for their first validators, the number of chainlets, and the parameters. A state *shows* a
registry when each variable that is read from it comes to what the registry says. What is proved of
the state is proved of the registry that it shows; this module says how a write of one variable
changes that registry, so that nothing later has to look at keys.

## Main definitions

* `Registry`, with `Registry.putStack`, `Registry.putChainlet`, `Registry.await`, `Registry.init`.
* `Registry.ShownBy` — a state shows a registry.

## Main results

* `Registry.ShownBy.putStack`, `Registry.ShownBy.putChainlet`, … — what a write does.
* `Registry.ShownBy.write`, `Registry.ShownBy.opened` — committing and opening a context.
* `Registry.ShownBy.unique` — a state shows at most one registry.
-/

namespace Chainlets

open Stored (Format encode fits)

/-- What a store holds. -/
structure Registry where
  /-- The stacks, by name. -/
  catalog : Catalog
  /-- The chainlets, by chain id. -/
  chainlets : OrderedMap String Chainlet
  /-- The consumers that wait for their first validators, by chain id. -/
  waiting : OrderedMap String ConsumerId
  /-- The number of chainlets that is kept. -/
  count : UInt64
  /-- The parameters, once there are any. -/
  params? : Option Params

namespace Registry

/-- What an empty store holds. -/
def empty : Registry := ⟨∅, ∅, ∅, 0, none⟩

/-- The registry with a stack under its name. -/
def putStack (reg : Registry) (stack : Stack) : Registry :=
  { reg with catalog := reg.catalog.insert stack.name stack }

/-- The registry with a chainlet under its chain id. -/
def putChainlet (reg : Registry) (c : Chainlet) : Registry :=
  { reg with chainlets := reg.chainlets.insert c.chainId c }

/-- The registry with a chainlet that waits as a consumer. -/
def await (reg : Registry) (chainId : String) (consumer : ConsumerId) : Registry :=
  { reg with waiting := reg.waiting.insert chainId consumer }

/-- The registry with a chainlet that does not wait any more. -/
def init (reg : Registry) (chainId : String) : Registry :=
  { reg with waiting := reg.waiting.erase chainId }

/-- The registry with another number of chainlets. -/
def withCount (reg : Registry) (count : UInt64) : Registry := { reg with count }

/-- The registry with parameters. -/
def withParams (reg : Registry) (params : Params) : Registry := { reg with params? := some params }

/-! ### What a state shows -/

/-- A state shows a registry. -/
structure ShownBy {κ : Type} [Readable κ] (reg : Registry) (r : κ) : Prop where
  catalog : Family.catalog.Shows r reg.catalog
  chainlets : Family.chainlets.Shows r reg.chainlets
  waiting : Family.waiting.Shows r reg.waiting
  count : Readable.chainletCount r = .ok reg.count
  params : Readable.read? r .params = .ok reg.params?

namespace ShownBy

variable {reg : Registry}

/-- What a state shows depends on what is read from it. -/
theorem congr {κ κ' : Type} [Readable κ] [Readable κ'] {r : κ} {r' : κ'} (h : reg.ShownBy r)
    (hget : ∀ k, Readable.get? r' k = Readable.get? r k) : reg.ShownBy r' where
  catalog := h.catalog.congr fun _ => hget _
  chainlets := h.chainlets.congr fun _ => hget _
  waiting := h.waiting.congr fun _ => hget _
  count := by
    rw [← h.count, Readable.chainletCount, Readable.chainletCount, Readable.read?, hget,
      ← Readable.read?]
  params := by rw [← h.params, Readable.read?, hget, ← Readable.read?]

/-- A state shows at most one registry. -/
theorem unique {κ : Type} [Readable κ] {r : κ} {reg' : Registry} (h : reg.ShownBy r)
    (h' : reg'.ShownBy r) : reg = reg' := by
  have hcatalog := h.catalog.unique h'.catalog
  have hchainlets := h.chainlets.unique h'.chainlets
  have hwaiting := h.waiting.unique h'.waiting
  have hcount := Except.ok.inj (h.count.symm.trans h'.count)
  have hparams := Except.ok.inj (h.params.symm.trans h'.params)
  obtain ⟨catalog, chainlets, waiting, count, params?⟩ := reg
  cases hcatalog
  cases hchainlets
  cases hwaiting
  cases hcount
  cases hparams
  rfl

/-- A chainlet is read where the registry has it. -/
theorem chainlet?_eq {κ : Type} [Readable κ] {r : κ} (h : reg.ShownBy r) (chainId : String) :
    Readable.chainlet? r chainId = .ok (reg.chainlets.get? chainId) := h.chainlets.read? chainId

theorem chainlet?_eq_some_iff {κ : Type} [Readable κ] {r : κ} (h : reg.ShownBy r)
    {chainId : String} {c : Chainlet} :
    Readable.chainlet? r chainId = .ok (some c) ↔ reg.chainlets.get? chainId = some c := by
  rw [h.chainlet?_eq]
  simp

/-- All stacks are read in the order of their names. -/
theorem allStacks {κ : Type} [Readable κ] [LawfulReadable κ] {r : κ} (h : reg.ShownBy r) :
    Readable.allStacks r = .ok (reg.catalog.toList.map (·.2)) := by
  have hread : Readable.readAll r Entry.stackMark .stack = .ok reg.catalog.toList :=
    h.catalog.readAll
  rw [Readable.allStacks, hread]
  rfl

/-- All chainlets are read in the order of their chain ids. -/
theorem allChainlets {κ : Type} [Readable κ] [LawfulReadable κ] {r : κ} (h : reg.ShownBy r) :
    Readable.allChainlets r = .ok (reg.chainlets.toList.map (·.2)) := by
  have hread : Readable.readAll r Entry.chainletMark .chainlet = .ok reg.chainlets.toList :=
    h.chainlets.readAll
  rw [Readable.allChainlets, hread]
  rfl

/-- The empty store shows the empty registry. -/
theorem empty : Registry.empty.ShownBy (∅ : Store) where
  catalog := .empty fun _ => rfl
  chainlets := .empty fun _ => rfl
  waiting := .empty fun _ => rfl
  count := rfl
  params := rfl

variable {s : Store} {u u' : Updates}

/-- The store shows the same registry once updates are written. -/
theorem write (h : reg.ShownBy (Overlay.mk s u)) : reg.ShownBy (s.write u) :=
  h.congr fun _ => Overlay.get?_of_write s u _

/-- A context that is opened shows the registry of the store. -/
theorem opened (h : reg.ShownBy s) : reg.ShownBy (Overlay.mk s ∅) :=
  h.congr fun _ => Overlay.get?_of_empty s _

/-- What is read under other marks does not change when a place under one mark does. -/
structure Elsewhere (reg : Registry) (mark : UInt8) (o : Overlay) : Prop where
  catalog : mark ≠ Entry.stackMark → Family.catalog.Shows o reg.catalog
  chainlets : mark ≠ Entry.chainletMark → Family.chainlets.Shows o reg.chainlets
  waiting : mark ≠ Entry.pendingInitMark → Family.waiting.Shows o reg.waiting
  count : mark ≠ Entry.chainletCountMark → Readable.chainletCount o = .ok reg.count
  params : mark ≠ Entry.paramsMark → Readable.read? o .params = .ok reg.params?

theorem elsewhere (h : reg.ShownBy (Overlay.mk s u)) {entry : Entry}
    (hget : ∀ k, k ≠ entry.key →
      Readable.get? (Overlay.mk s u') k = Readable.get? (Overlay.mk s u) k) :
    Elsewhere reg entry.mark (Overlay.mk s u') where
  catalog hmark := h.catalog.congr fun k => hget _ fun heq => entry.key_ne hmark k heq.symm
  chainlets hmark := h.chainlets.congr fun k => hget _ fun heq => entry.key_ne hmark k heq.symm
  waiting hmark := h.waiting.congr fun k => hget _ fun heq => entry.key_ne hmark k heq.symm
  count hmark := by
    have hcell := hget Entry.chainletCount.key fun heq => entry.key_ne hmark [] heq.symm
    rw [← h.count, Readable.chainletCount, Readable.chainletCount, Readable.read?, hcell,
      ← Readable.read?]
  params hmark := by
    have hcell := hget Entry.params.key fun heq => entry.key_ne hmark [] heq.symm
    rw [← h.params, Readable.read?, hcell, ← Readable.read?]

theorem elsewhere_insert (h : reg.ShownBy (Overlay.mk s u)) (entry : Entry) (v : Bytes) :
    Elsewhere reg entry.mark (Overlay.mk s (u.insert entry.key v)) :=
  h.elsewhere fun k hk => by rw [Overlay.get?_of_insert, if_neg hk]

theorem elsewhere_delete (h : reg.ShownBy (Overlay.mk s u)) (entry : Entry) :
    Elsewhere reg entry.mark (Overlay.mk s (u.delete entry.key)) :=
  h.elsewhere fun k hk => by rw [Overlay.get?_of_delete, if_neg hk]

/-- A value that was written is read back. -/
theorem read?_of_insert {α : Type} [Format α] [Stored.Lawful α] (s : Store) (u : Updates)
    (entry : Entry) {a : α} (ha : fits a = true) :
    Readable.read? (Overlay.mk s (u.insert entry.key (encode a))) entry = .ok (some a) := by
  rw [Readable.read?, Overlay.get?_of_insert, if_pos rfl]
  simp only [Stored.decode_encode ha]
  rfl

theorem putStack (h : reg.ShownBy (Overlay.mk s u)) {stack : Stack} (hfits : fits stack = true) :
    (reg.putStack stack).ShownBy
      (Overlay.mk s (u.insert (Entry.stack stack.name).key (encode stack))) := by
  have hrest : Elsewhere reg Entry.stackMark _ :=
    h.elsewhere_insert (.stack stack.name) (encode stack)
  exact ⟨h.catalog.put hfits, hrest.chainlets (by decide), hrest.waiting (by decide),
    hrest.count (by decide), hrest.params (by decide)⟩

theorem putChainlet (h : reg.ShownBy (Overlay.mk s u)) {c : Chainlet} (hfits : fits c = true) :
    (reg.putChainlet c).ShownBy
      (Overlay.mk s (u.insert (Entry.chainlet c.chainId).key (encode c))) := by
  have hrest : Elsewhere reg Entry.chainletMark _ :=
    h.elsewhere_insert (.chainlet c.chainId) (encode c)
  exact ⟨hrest.catalog (by decide), h.chainlets.put hfits, hrest.waiting (by decide),
    hrest.count (by decide), hrest.params (by decide)⟩

theorem await (h : reg.ShownBy (Overlay.mk s u)) (chainId : String) {consumer : ConsumerId}
    (hfits : fits consumer = true) :
    (reg.await chainId consumer).ShownBy
      (Overlay.mk s (u.insert (Entry.pendingInit chainId).key (encode consumer))) := by
  have hrest : Elsewhere reg Entry.pendingInitMark _ :=
    h.elsewhere_insert (.pendingInit chainId) (encode consumer)
  exact ⟨hrest.catalog (by decide), hrest.chainlets (by decide), h.waiting.put hfits,
    hrest.count (by decide), hrest.params (by decide)⟩

theorem init (h : reg.ShownBy (Overlay.mk s u)) (chainId : String) :
    (reg.init chainId).ShownBy (Overlay.mk s (u.delete (Entry.pendingInit chainId).key)) := by
  have hrest : Elsewhere reg Entry.pendingInitMark _ := h.elsewhere_delete (.pendingInit chainId)
  exact ⟨hrest.catalog (by decide), hrest.chainlets (by decide), h.waiting.drop chainId,
    hrest.count (by decide), hrest.params (by decide)⟩

theorem withCount (h : reg.ShownBy (Overlay.mk s u)) (count : UInt64) :
    (reg.withCount count).ShownBy
      (Overlay.mk s (u.insert Entry.chainletCount.key (encode count))) := by
  have hrest : Elsewhere reg Entry.chainletCountMark _ :=
    h.elsewhere_insert .chainletCount (encode count)
  refine ⟨hrest.catalog (by decide), hrest.chainlets (by decide), hrest.waiting (by decide), ?_,
    hrest.params (by decide)⟩
  rw [Readable.chainletCount, read?_of_insert s u .chainletCount rfl]
  rfl

theorem withParams (h : reg.ShownBy (Overlay.mk s u)) (params : Params) :
    (reg.withParams params).ShownBy
      (Overlay.mk s (u.insert Entry.params.key (encode params))) := by
  have hrest : Elsewhere reg Entry.paramsMark _ := h.elsewhere_insert .params (encode params)
  exact ⟨hrest.catalog (by decide), hrest.chainlets (by decide), hrest.waiting (by decide),
    hrest.count (by decide), read?_of_insert s u .params rfl⟩

end ShownBy

end Registry

end Chainlets
