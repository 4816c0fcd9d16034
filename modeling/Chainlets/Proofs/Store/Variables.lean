import Chainlets.Execution
import Chainlets.Host.World
import Chainlets.Proofs.Registry.Basic
import Mathlib.Logic.Function.Basic

/-!
# State variables as independent maps

The setters of the state variables write bytes under keys, and the getters read them back. Seen
through the getters, nothing is left of the bytes: the stacks, the chainlets and the waiting
consumers are three maps from names to values, the number of chainlets and the parameters are two
cells, and a setter changes one value of one of them.

What is assumed of the state is that everything in it was written by the setters. It may have been
committed in between, or dropped, any number of times; and a part of an execution that is rolled
back leads to a state in which the execution was before.

Names are compared by their bytes. They are arbitrary texts: the empty one is a name like any other,
and so is one that another begins with.

## Main definitions

* `Assignment` — a call of a setter — with `Assignment.perform`.
* `Assigned` — everything in a state was written by the setters.
* `Readings`, with `Readings.ReadFrom` — what the getters return.
* `Readings.assign` — the change that an assignment stands for.

## Main results

* `Registry.ShownBy.assign` — what a setter does to the registry that a state shows.
* `Assigned.readings_assign` — **a setter changes one value of one variable, and nothing else.**
-/

namespace Chainlets

/-! ### Assignments -/

/-- A call of a setter. -/
inductive Assignment where
  | stack (stack : Stack)
  | chainlet (c : Chainlet)
  | chainletCount (count : UInt64)
  | params (params : Params)
  | pendingInit (chainId : String) (consumer : ConsumerId)
  /-- The deletion of a pending initialization, if there is one. -/
  | noPendingInit (chainId : String)

namespace Assignment

/-- The setter. -/
def perform {ω : Type} : Assignment → Execution ω Unit
  | .stack v => Execution.putStack v
  | .chainlet v => Execution.putChainlet v
  | .chainletCount v => Execution.putChainletCount v
  | .params v => Execution.putParams v
  | .pendingInit id v => Execution.putPendingInit id v
  | .noPendingInit id => Execution.drop (.pendingInit id)

/-- Every count in the stored form of the value fits into its four bytes. -/
def fits : Assignment → Bool
  | .stack v => Stored.fits v
  | .chainlet v => Stored.fits v
  | .chainletCount v => Stored.fits v
  | .params v => Stored.fits v
  | .pendingInit _ v => Stored.fits v
  | .noPendingInit _ => true

/-- What the setter does to the updates. -/
def buffer (u : Updates) : Assignment → Updates
  | .stack v => u.insert (Entry.stack v.name).key (Stored.encode v)
  | .chainlet v => u.insert (Entry.chainlet v.chainId).key (Stored.encode v)
  | .chainletCount v => u.insert Entry.chainletCount.key (Stored.encode v)
  | .params v => u.insert Entry.params.key (Stored.encode v)
  | .pendingInit id v => u.insert (Entry.pendingInit id).key (Stored.encode v)
  | .noPendingInit id => u.delete (Entry.pendingInit id).key

variable {ω : Type}

/-- A value that can be stored is buffered, and nothing else happens. -/
theorem run_perform {a : Assignment} (h : a.fits = true) (s : Surroundings ω) (m : Machine ω) :
    a.perform.run s m =
      (.ok (), { m with context := { m.context with updates := a.buffer m.context.updates } }) := by
  have hput : ∀ {α : Type} [Stored.Format α] (entry : Entry) {v : α}, Stored.fits v = true →
      (Execution.put entry v).run s m = (.ok (), { m with context :=
        { m.context with updates := m.context.updates.insert entry.key (Stored.encode v) } }) :=
    fun {α _} entry {v} hv => by rw [Execution.put, if_pos hv]; rfl
  cases a with
  | stack v => exact hput _ h
  | chainlet v => exact hput _ h
  | chainletCount v => exact hput _ h
  | params v => exact hput _ h
  | pendingInit id v => exact hput _ h
  | noPendingInit id => rfl

/-- A value that cannot be stored is refused. -/
theorem fits_of_run {a : Assignment} {s : Surroundings ω} {m m' : Machine ω}
    (hrun : a.perform.run s m = (.ok (), m')) : a.fits = true := by
  have hput : ∀ {α : Type} [Stored.Format α] {entry : Entry} {v : α},
      (Execution.put entry v).run s m = (.ok (), m') → Stored.fits v = true :=
    fun {α _ entry v} hrun => by
      by_cases hv : Stored.fits v = true
      · exact hv
      · rw [Execution.put, if_neg hv] at hrun
        cases hrun
  cases a with
  | stack v => exact hput hrun
  | chainlet v => exact hput hrun
  | chainletCount v => exact hput hrun
  | params v => exact hput hrun
  | pendingInit id v => exact hput hrun
  | noPendingInit id => rfl

end Assignment

namespace Registry

/-- What a setter does to the registry. -/
def assign (reg : Registry) : Assignment → Registry
  | .stack v => reg.putStack v
  | .chainlet v => reg.putChainlet v
  | .chainletCount v => reg.withCount v
  | .params v => reg.withParams v
  | .pendingInit id v => reg.await id v
  | .noPendingInit id => reg.init id

variable {reg : Registry}

/-- What a setter does to the registry that a state shows. -/
theorem ShownBy.assign {s : Store} {u : Updates} (h : reg.ShownBy (Overlay.mk s u))
    {a : Assignment} (hfits : a.fits = true) :
    (reg.assign a).ShownBy (Overlay.mk s (a.buffer u)) := by
  cases a with
  | stack v => exact h.putStack hfits
  | chainlet v => exact h.putChainlet hfits
  | chainletCount v => exact h.withCount v
  | params v => exact h.withParams v
  | pendingInit id v => exact h.await id hfits
  | noPendingInit id => exact h.init id

/-- Stacks and chainlets are kept under their own names. -/
structure Named (reg : Registry) : Prop where
  catalog : ∀ {name stack}, reg.catalog.get? name = some stack → stack.name = name
  chainlets : ∀ {chainId c}, reg.chainlets.get? chainId = some c → c.chainId = chainId

theorem Named.assign (h : reg.Named) (a : Assignment) : (reg.assign a).Named := by
  cases a with
  | stack v =>
    refine ⟨fun {name found} hfound => ?_, h.chainlets⟩
    rcases OrderedMap.get?_insert_cases hfound with ⟨rfl, rfl⟩ | hfound
    · rfl
    · exact h.catalog hfound
  | chainlet v =>
    refine ⟨h.catalog, fun {chainId found} hfound => ?_⟩
    rcases OrderedMap.get?_insert_cases hfound with ⟨rfl, rfl⟩ | hfound
    · rfl
    · exact h.chainlets hfound
  | chainletCount v => exact ⟨h.catalog, h.chainlets⟩
  | params v => exact ⟨h.catalog, h.chainlets⟩
  | pendingInit id v => exact ⟨h.catalog, h.chainlets⟩
  | noPendingInit id => exact ⟨h.catalog, h.chainlets⟩

end Registry

/-- Everything in a state was written by the setters. -/
inductive Assigned : Overlay → Prop
  | empty : Assigned ⟨∅, ∅⟩
  | assign {ω : Type} {a : Assignment} {s : Surroundings ω} {m m' : Machine ω} :
    Assigned ⟨s.store, m.context.updates⟩ → a.perform.run s m = (.ok (), m') →
      Assigned ⟨s.store, m'.context.updates⟩
  /-- The updates are written, and another context is opened. -/
  | commit {s : Store} {u : Updates} : Assigned ⟨s, u⟩ → Assigned ⟨s.write u, ∅⟩
  /-- The updates are dropped, and another context is opened. -/
  | drop {s : Store} {u : Updates} : Assigned ⟨s, u⟩ → Assigned ⟨s, ∅⟩

/-- Any parent chain will do for a setter, since it is not asked. -/
theorem Assigned.buffer {s : Store} {u : Updates} (h : Assigned ⟨s, u⟩) {a : Assignment}
    (hfits : a.fits = true) : Assigned ⟨s, a.buffer u⟩ := by
  let surroundings : Surroundings Host.World := ⟨s, Host.World.parent true, .unloaded⟩
  let m : Machine Host.World := ⟨{ Context.fresh ⟨0⟩ ⟨0⟩ with updates := u }, .initial, []⟩
  exact .assign (s := surroundings) (m := m) h (Assignment.run_perform hfits surroundings m)

/-- A state that the setters wrote shows a registry, and so does the store under it. -/
theorem Assigned.exists_shown {o : Overlay} (h : Assigned o) :
    (∃ reg : Registry, reg.ShownBy o ∧ reg.Named) ∧
      ∃ reg : Registry, reg.ShownBy o.base ∧ reg.Named := by
  have hempty : Registry.empty.Named := ⟨fun h => (by cases h), fun h => (by cases h)⟩
  induction h with
  | empty => exact ⟨⟨.empty, .opened .empty, hempty⟩, .empty, .empty, hempty⟩
  | assign _ hrun ih =>
    obtain ⟨⟨reg, hshown, hnamed⟩, hbase⟩ := ih
    have hfits := Assignment.fits_of_run hrun
    rw [Assignment.run_perform hfits] at hrun
    cases hrun
    exact ⟨⟨_, hshown.assign hfits, hnamed.assign _⟩, hbase⟩
  | commit _ ih =>
    obtain ⟨⟨reg, hshown, hnamed⟩, -⟩ := ih
    exact ⟨⟨reg, hshown.write.opened, hnamed⟩, reg, hshown.write, hnamed⟩
  | drop _ ih =>
    obtain ⟨-, reg, hshown, hnamed⟩ := ih
    exact ⟨⟨reg, hshown.opened, hnamed⟩, reg, hshown, hnamed⟩

/-! ### What the getters return -/

/-- What the getters return of a state. -/
structure Readings where
  /-- The stack with a name. -/
  stack? : String → Option Stack
  /-- All stacks. -/
  allStacks : List Stack
  /-- The chainlet with a chain id. -/
  chainlet? : String → Option Chainlet
  /-- All chainlets. -/
  chainlets : List Chainlet
  /-- The number of chainlets. -/
  chainletCount : UInt64
  /-- The parameters, once there are any. -/
  params? : Option Params
  /-- The consumer that a chainlet waits as. -/
  pendingInit? : String → Option ConsumerId
  /-- All consumers that wait, with the chain ids. -/
  pendingInits : List (String × ConsumerId)

namespace Readings

/-- The getters return this and do not fail, except for want of parameters. -/
structure ReadFrom {κ : Type} [Readable κ] (R : Readings) (r : κ) : Prop where
  stack? : ∀ name, Readable.stack? r name = .ok (R.stack? name)
  allStacks : Readable.allStacks r = .ok R.allStacks
  chainlet? : ∀ chainId, Readable.chainlet? r chainId = .ok (R.chainlet? chainId)
  chainlets : Readable.allChainlets r = .ok R.chainlets
  chainletCount : Readable.chainletCount r = .ok R.chainletCount
  params : Readable.params r = R.params?.elim (.error (.missing .params)) .ok
  pendingInit? : ∀ chainId, Readable.pendingInit? r chainId = .ok (R.pendingInit? chainId)
  pendingInits : Readable.pendingInits r = .ok R.pendingInits

/-- A list holds the values that lookups find, in the order of the bytes of their names. -/
structure Lists {α : Type} (name : α → String) (l : List α) (lookup : String → Option α) :
    Prop where
  ascending : l.Pairwise fun a b => compare (Utf8.encode (name a)) (Utf8.encode (name b)) = .lt
  lookup_iff : ∀ {n a}, lookup n = some a ↔ a ∈ l ∧ name a = n

/-- The lists hold what the getters of single values return. -/
structure Listed (R : Readings) : Prop where
  allStacks : Lists Stack.name R.allStacks R.stack?
  chainlets : Lists Chainlet.chainId R.chainlets R.chainlet?
  pendingInits :
    Lists Prod.fst R.pendingInits fun id => (R.pendingInit? id).map fun v => (id, v)

/-- The list with a value at the place of its name, between those whose names have lower bytes and
those whose names have higher bytes. A value with the same name gives way to it. -/
def place {α : Type} (name : α → String) (a : α) (l : List α) : List α :=
  l.filter (fun b => compare (Utf8.encode (name b)) (Utf8.encode (name a)) = .lt) ++
    a :: l.filter (fun b => compare (Utf8.encode (name a)) (Utf8.encode (name b)) = .lt)

/-- What an assignment changes: one value of one variable. -/
def assign (R : Readings) : Assignment → Readings
  | .stack v => { R with
      stack? := Function.update R.stack? v.name (some v)
      allStacks := place Stack.name v R.allStacks }
  | .chainlet v => { R with
      chainlet? := Function.update R.chainlet? v.chainId (some v)
      chainlets := place Chainlet.chainId v R.chainlets }
  | .chainletCount v => { R with chainletCount := v }
  | .params v => { R with params? := some v }
  | .pendingInit id v => { R with
      pendingInit? := Function.update R.pendingInit? id (some v)
      pendingInits := place Prod.fst (id, v) R.pendingInits }
  | .noPendingInit id => { R with
      pendingInit? := Function.update R.pendingInit? id none
      pendingInits := R.pendingInits.filter fun p => p.1 ≠ id }

/-! ### The readings of a registry -/

/-- The readings of a state that shows a registry. -/
def ofRegistry (reg : Registry) : Readings where
  stack? := reg.catalog.get?
  allStacks := reg.catalog.toList.map (·.2)
  chainlet? := reg.chainlets.get?
  chainlets := reg.chainlets.toList.map (·.2)
  chainletCount := reg.count
  params? := reg.params?
  pendingInit? := reg.waiting.get?
  pendingInits := reg.waiting.toList

theorem readFrom_ofRegistry {κ : Type} [Readable κ] [LawfulReadable κ] {r : κ} {reg : Registry}
    (h : reg.ShownBy r) : (ofRegistry reg).ReadFrom r where
  stack? := h.catalog.read?
  allStacks := h.allStacks
  chainlet? := h.chainlets.read?
  chainlets := h.allChainlets
  chainletCount := h.count
  params := by
    rw [Readable.params, h.params, ofRegistry]
    cases reg.params? <;> rfl
  pendingInit? := h.waiting.read?
  pendingInits := h.waiting.readAll

/-! What the lists of a registry are is said once, for values that are made of the entries of a map
and have the keys for their names. -/

section Entries

variable {α β : Type} (m : OrderedMap String α) (f : String × α → β) (name : β → String)

theorem lists_toList (h : ∀ {k v}, m.get? k = some v → name (f (k, v)) = k) :
    Lists name (m.toList.map f) fun k => (m.get? k).map fun v => f (k, v) where
  ascending := by
    refine List.pairwise_map.2 (m.ascending.imp_of_mem fun {p q} hp hq hlt => ?_)
    rw [h (OrderedMap.get?_eq_some_iff.2 hp), h (OrderedMap.get?_eq_some_iff.2 hq)]
    exact Utf8.compare_encode hlt
  lookup_iff {k b} := by
    rw [Option.map_eq_some_iff, List.mem_map]
    constructor
    · rintro ⟨v, hv, rfl⟩
      exact ⟨⟨(k, v), OrderedMap.get?_eq_some_iff.1 hv, rfl⟩, h hv⟩
    · rintro ⟨⟨⟨k', v⟩, hmem, rfl⟩, hk⟩
      have hv := OrderedMap.get?_eq_some_iff.2 hmem
      cases (h hv).symm.trans hk
      exact ⟨v, hv, rfl⟩

/-- The list after an insertion has the new value at its place. -/
theorem place_toList (h : ∀ {k v}, m.get? k = some v → name (f (k, v)) = k) {k : String} {v : α}
    (hk : name (f (k, v)) = k) :
    place name (f (k, v)) (m.toList.map f) = (m.insert k v).toList.map f := by
  have hname : ∀ e ∈ m.toList, name (f e) = e.1 := fun e he =>
    h (OrderedMap.get?_eq_some_iff.2 he)
  rw [OrderedMap.toList_insert, place, List.map_append, List.map_cons, List.filter_map,
    List.filter_map]
  congr 2
  · refine List.filter_congr fun e he => ?_
    simp only [Function.comp, hname e he, hk, Utf8.compare_encode_eq]
  · congr 1
    refine List.filter_congr fun e he => ?_
    simp only [Function.comp, hname e he, hk, Utf8.compare_encode_eq]

omit f name in
theorem update_get? (k : String) (v : α) :
    Function.update m.get? k (some v) = (m.insert k v).get? := by
  funext k'
  rw [Function.update_apply, OrderedMap.get?_insert]

end Entries

theorem listed_ofRegistry {reg : Registry} (h : reg.Named) : (ofRegistry reg).Listed where
  allStacks := by
    have hlists := lists_toList reg.catalog Prod.snd Stack.name h.catalog
    simp only [Option.map_id'] at hlists
    exact hlists
  chainlets := by
    have hlists := lists_toList reg.chainlets Prod.snd Chainlet.chainId h.chainlets
    simp only [Option.map_id'] at hlists
    exact hlists
  pendingInits := by
    have hlists := lists_toList reg.waiting id Prod.fst fun _ => rfl
    rwa [List.map_id] at hlists

/-- The readings after an assignment are those of the registry after it. -/
theorem assign_ofRegistry {reg : Registry} (h : reg.Named) (a : Assignment) :
    (ofRegistry reg).assign a = ofRegistry (reg.assign a) := by
  cases a with
  | stack v =>
    have hplace := place_toList reg.catalog Prod.snd Stack.name h.catalog
      (show Stack.name (v.name, v).2 = v.name from rfl)
    change Readings.mk (Function.update reg.catalog.get? v.name (some v))
      (place Stack.name v (reg.catalog.toList.map Prod.snd)) _ _ _ _ _ _ = _
    rw [update_get?, hplace]
    rfl
  | chainlet v =>
    have hplace := place_toList reg.chainlets Prod.snd Chainlet.chainId h.chainlets
      (show Chainlet.chainId (v.chainId, v).2 = v.chainId from rfl)
    change Readings.mk _ _ (Function.update reg.chainlets.get? v.chainId (some v))
      (place Chainlet.chainId v (reg.chainlets.toList.map Prod.snd)) _ _ _ _ = _
    rw [update_get?, hplace]
    rfl
  | chainletCount v => rfl
  | params v => rfl
  | pendingInit id v =>
    have hplace := place_toList reg.waiting (fun e => e) Prod.fst (fun _ => rfl)
      (show Prod.fst (id, v) = id from rfl)
    rw [List.map_id', List.map_id'] at hplace
    change Readings.mk _ _ _ _ _ _ (Function.update reg.waiting.get? id (some v))
      (place Prod.fst (id, v) reg.waiting.toList) = _
    rw [update_get?, hplace]
    rfl
  | noPendingInit id =>
    have hupdate : Function.update reg.waiting.get? id none = (reg.waiting.erase id).get? := by
      funext k
      rw [Function.update_apply, OrderedMap.get?_erase]
    change Readings.mk _ _ _ _ _ _ (Function.update reg.waiting.get? id none)
      (reg.waiting.toList.filter fun e => e.1 ≠ id) = _
    rw [hupdate, ← OrderedMap.toList_erase]
    rfl

end Readings

/-- **A setter changes one value of one variable, and nothing else.** In a state that the setters
wrote, every getter succeeds, but for parameters that were never set, and the lists hold what the
getters of single values return. If the counts of a value fit into their four bytes, then its setter
succeeds, and afterwards the getters return what they returned before, with that one change: the
value itself under its name, and at the place of its name in the list. -/
theorem Assigned.readings_assign {o : Overlay} (h : Assigned o) :
    ∃ R : Readings, R.ReadFrom o ∧ R.Listed ∧
      ∀ a : Assignment, a.fits = true →
        ∀ {ω : Type} (s : Surroundings ω) (m : Machine ω),
          Overlay.mk s.store m.context.updates = o →
          ∃ u, a.perform.run s m =
              (.ok (), { m with context := { m.context with updates := u } }) ∧
            (R.assign a).ReadFrom (Overlay.mk s.store u) := by
  obtain ⟨⟨reg, hshown, hnamed⟩, -⟩ := h.exists_shown
  refine ⟨.ofRegistry reg, Readings.readFrom_ofRegistry hshown, Readings.listed_ofRegistry hnamed,
    fun a hfits ω s m ho => ⟨a.buffer m.context.updates, Assignment.run_perform hfits s m, ?_⟩⟩
  rw [Readings.assign_ofRegistry hnamed]
  rw [← ho] at hshown
  exact Readings.readFrom_ofRegistry (hshown.assign hfits)

/-- A stack without name comes before all others, and a name comes before those that it begins. -/
theorem Assigned.readings_assign_unnamed :
    let named : String → Stack := fun name => ⟨name, "", [], []⟩
    let s : Surroundings Host.World := ⟨∅, Host.World.parent true, .unloaded⟩
    let written := (Assignment.stack (named "a")).buffer ((Assignment.stack (named "ab")).buffer ∅)
    let m : Machine Host.World := ⟨{ Context.fresh ⟨1⟩ ⟨0⟩ with updates := written }, .initial, []⟩
    Assigned ⟨∅, written⟩ ∧ (Assignment.stack (named "")).fits = true ∧
      ∃ u, (Assignment.stack (named "")).perform.run s m =
          (.ok (), { m with context := { m.context with updates := u } }) ∧
        Readable.allStacks (Overlay.mk ∅ u) = .ok [named "", named "a", named "ab"] := by
  intro named s written m
  have hwritten : Assigned ⟨∅, written⟩ := (Assigned.empty.buffer (by decide)).buffer (by decide)
  have hfits : (Assignment.stack (named "")).fits = true := by decide
  refine ⟨hwritten, hfits, ?_⟩
  obtain ⟨R, hread, -, hassign⟩ := Assigned.readings_assign hwritten
  obtain ⟨u, hrun, hafter⟩ := hassign (.stack (named "")) hfits s m rfl
  refine ⟨u, hrun, hafter.allStacks.trans ?_⟩
  have hbefore : (Readable.allStacks (Overlay.mk ∅ written)).toOption =
      some [named "a", named "ab"] := by decide +kernel
  rw [hread.allStacks] at hbefore
  have hstacks : R.allStacks = [named "a", named "ab"] := Option.some.inj hbefore
  have hplaced : (R.assign (.stack (named ""))).allStacks =
      [named "", named "a", named "ab"] := by
    change Readings.place Stack.name (named "") R.allStacks = _
    rw [hstacks]
    decide +kernel
  rw [hplaced]

end Chainlets
