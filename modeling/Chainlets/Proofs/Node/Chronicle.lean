import Chainlets.Proofs.Node.Registry

/-!
# Chronicles

What has been done in a run and still counts: the operations of the contexts that were committed,
in order, and then those of the context that is open. What was done in a context that was dropped
never happened.

Many statements about runs relate an earlier operation to a later one. They follow from what the
state keeps of the earlier one. If an operation leaves a mark on the state, and no operation removes
a mark, then every later operation still finds it. And since each operation finds what the one
before it left, whatever is different between two of them was changed by one in between.

## Main definitions

* `Deed` — something that was done: what was asked for, and all that its outcome depends on.
* `Chronicle`, with `Chronicle.step`, `Chronicle.run` and `Chronicle.deeds`.
* `Chronicle.Invariant` — a statement about what was done and the state that it led to, which each
  operation hands on.
* `Deed.Link` — each finds what the one before it left.

## Main results

* `Chronicle.node_run` — a chronicle is kept beside a run and does not touch it.
* `Chronicle.mem_deeds_run` — what is in a chronicle was an action of the run.
* `Chronicle.forall_deeds_run` — what holds of all that can be done holds of all that was done.
* `Chronicle.exists_deeds_run` — an invariant holds of all that was done in a run.
* `Chronicle.pairwise_marked` — **a mark that no operation removes is found by all later ones.**
* `Chronicle.link_run` — **each operation finds what the one before it left.**
* `Deed.Link.since` — what holds in the end has held all along, or since something was done.
-/

namespace Chainlets

variable {ω : Type}

/-- Something that was done: what was asked for, and all that its outcome depends on. -/
structure Deed (ω : Type) where
  /-- What is committed. -/
  store : Store
  /-- The parent chain. -/
  parent : Parent ω
  /-- What is asked for. -/
  request : Request
  /-- The open context, the cache, and the state of the parent chain. -/
  live : Live ω

namespace Deed

/-- What came of it. -/
def result (d : Deed ω) : Except Failure Response :=
  (Controller.perform d.store d.parent d.request d.live).1

/-- The open context, the cache and the parent chain afterwards. -/
def left (d : Deed ω) : Live ω := (Controller.perform d.store d.parent d.request d.live).2

/-- The state that it found. -/
def before (d : Deed ω) : Overlay := ⟨d.store, d.live.context.updates⟩

/-- The state that it left. -/
def after (d : Deed ω) : Overlay := ⟨d.store, d.left.context.updates⟩

end Deed

/-- A node, and what has been done on it and still counts. -/
structure Chronicle (ω : Type) where
  /-- The node. -/
  node : Node
  /-- What was done in contexts that were committed. -/
  past : List (Deed ω)
  /-- What was done in the open context. -/
  present : List (Deed ω)

namespace Chronicle

/-- What has been done, in order. -/
def deeds (ch : Chronicle ω) : List (Deed ω) := ch.past ++ ch.present

/-- Do one action, and take down what it does. -/
def step (ch : Chronicle ω) (action : Node.Action ω) : Chronicle ω :=
  let node := ch.node.step action
  match action with
  | .perform parent world request =>
    match ch.node.context? with
    | none => { ch with node }
    | some context =>
      let deed := ⟨ch.node.store, parent, request, ⟨context, ch.node.cache, world, []⟩⟩
      { ch with node, present := ch.present ++ [deed] }
  | .commit .. => ⟨node, ch.deeds, []⟩
  | .drop => { ch with node, present := [] }
  | _ => { ch with node }

/-- Do actions one after the other, and take down what they do. -/
def run (ch : Chronicle ω) (actions : List (Node.Action ω)) : Chronicle ω := actions.foldl step ch

theorem run_append (ch : Chronicle ω) (front actions : List (Node.Action ω)) :
    ch.run (front ++ actions) = (ch.run front).run actions := List.foldl_append

/-- A chronicle of a node on which nothing has been done yet that counts. -/
def blank (n : Node) : Chronicle ω := ⟨n, [], []⟩

theorem node_step (ch : Chronicle ω) (action : Node.Action ω) :
    (ch.step action).node = ch.node.step action := by
  cases action with
  | perform parent world request =>
    rw [step]
    split <;> rfl
  | _ => rfl

/-- **A chronicle is kept beside a run and does not touch it.** -/
theorem node_run (ch : Chronicle ω) (actions : List (Node.Action ω)) :
    (ch.run actions).node = ch.node.run actions := by
  induction actions generalizing ch with
  | nil => rfl
  | cons action actions ih => exact (ih (ch.step action)).trans (by rw [node_step]; rfl)

/-- What is done in the open context is taken down last. -/
theorem step_perform {ch : Chronicle ω} {context : Context} (h : ch.node.context? = some context)
    (parent : Parent ω) (world : ω) (request : Request) :
    ch.step (.perform parent world request) =
      let d : Deed ω := ⟨ch.node.store, parent, request, ⟨context, ch.node.cache, world, []⟩⟩
      ⟨⟨ch.node.store, d.left.cache, some d.left.context⟩, ch.past, ch.present ++ [d]⟩ := by
  rw [step, h, Node.step_perform h]
  rfl

/-- What is taken down was done by the action, or was there before. -/
theorem mem_deeds_step {ch : Chronicle ω} {action : Node.Action ω} {d : Deed ω}
    (h : d ∈ (ch.step action).deeds) :
    d ∈ ch.deeds ∨ ∃ context parent world request, ch.node.context? = some context ∧
      action = .perform parent world request ∧
      d = ⟨ch.node.store, parent, request, ⟨context, ch.node.cache, world, []⟩⟩ := by
  obtain ⟨⟨store, cache, context?⟩, past, present⟩ := ch
  cases action with
  | perform parent world request =>
    cases context? with
    | none => exact .inl h
    | some context =>
      change d ∈ past ++ (present ++ [_]) at h
      rw [← List.append_assoc, List.mem_append, List.mem_singleton] at h
      rcases h with h | rfl
      · exact .inl h
      · exact .inr ⟨context, parent, world, request, rfl, rfl, rfl⟩
  | commit logsEvents listener =>
    change d ∈ (past ++ present) ++ [] at h
    rw [List.append_nil] at h
    exact .inl h
  | drop =>
    change d ∈ past ++ [] at h
    rw [List.append_nil] at h
    exact .inl (List.mem_append_left _ h)
  | openContext height time => exact .inl h
  | latestCompatible stack current => exact .inl h
  | invalidate => exact .inl h

/-- **What is in a chronicle was an action of the run.** -/
theorem mem_deeds_run {n : Node} {actions : List (Node.Action ω)} {d : Deed ω}
    (h : d ∈ ((blank n).run actions).deeds) :
    Node.Action.perform d.parent d.live.world d.request ∈ actions := by
  have hrun : d ∈ (blank n : Chronicle ω).deeds ∨
      Node.Action.perform d.parent d.live.world d.request ∈ actions := by
    generalize blank n = ch at h ⊢
    induction actions generalizing ch with
    | nil => exact .inl h
    | cons action actions ih =>
      rcases ih (ch.step action) h with hmem | hmem
      · rcases mem_deeds_step hmem with hmem | ⟨_, _, _, _, -, rfl, rfl⟩
        · exact .inl hmem
        · exact .inr List.mem_cons_self
      · exact .inr (List.mem_cons_of_mem _ hmem)
  rcases hrun with hmem | hmem
  · cases hmem
  · exact hmem

/-- **What holds of all that can be done on a node holds of all that was done**, if each action
keeps the node as it has to be. -/
theorem forall_deeds_run {P : Node → Prop} {Q : Deed ω → Prop}
    (hstep : ∀ n (action : Node.Action ω), P n → P (n.step action))
    (hdone : ∀ n context parent world request, P n → n.context? = some context →
      Q ⟨n.store, parent, request, ⟨context, n.cache, world, []⟩⟩)
    {n : Node} (hn : P n) (actions : List (Node.Action ω)) :
    ∀ d ∈ ((blank n).run actions).deeds, Q d := by
  have hrun : ∀ d ∈ (blank n : Chronicle ω).deeds, Q d := fun _ hd => absurd hd List.not_mem_nil
  have hnode : P (blank n : Chronicle ω).node := hn
  generalize blank n = ch at hrun hnode ⊢
  induction actions generalizing ch with
  | nil => exact hrun
  | cons action actions ih =>
    refine ih (ch.step action) (fun d hd => ?_) (by rw [node_step]; exact hstep _ _ hnode)
    rcases mem_deeds_step hd with hmem | ⟨context, parent, world, request, hcontext, -, rfl⟩
    · exact hrun d hmem
    · exact hdone _ _ _ _ _ hnode hcontext

/-! ### Invariants -/

end Chronicle

/-- Two states have the same values under all keys. -/
def Overlay.SameAs (o o' : Overlay) : Prop := ∀ k, Readable.get? o k = Readable.get? o' k

theorem Overlay.SameAs.read?_eq {o o' : Overlay} (h : o.SameAs o') {α : Type} [Stored.Format α]
    (entry : Entry) : (Readable.read? o entry : Except StorageFault (Option α)) =
      Readable.read? o' entry := by
  rw [Readable.read?, Readable.read?, h]

theorem Overlay.SameAs.chainlet?_eq {o o' : Overlay} (h : o.SameAs o') (chainId : String) :
    Readable.chainlet? o chainId = Readable.chainlet? o' chainId := h.read?_eq _

namespace Chronicle

/-- A statement about what was done and the state that it led to: it depends on nothing but the
values under the keys, and goes on to hold when something else is done to the state. -/
structure Invariant (P : List (Deed ω) → Overlay → Prop) : Prop where
  congr : ∀ {deeds : List (Deed ω)} {o o' : Overlay}, o'.SameAs o → P deeds o → P deeds o'
  concat : ∀ {deeds : List (Deed ω)} {d : Deed ω}, d.request.isImport = false →
    P deeds d.before → P (deeds ++ [d]) d.after

/-- A statement holds of what is committed, and of what the open context sees. -/
structure Holds (P : List (Deed ω) → Overlay → Prop) (ch : Chronicle ω) : Prop where
  committed : P ch.past ⟨ch.node.store, ∅⟩
  staged : ∀ context, ch.node.context? = some context →
    P ch.deeds ⟨ch.node.store, context.updates⟩
  closed : ch.node.context? = none → ch.present = []

namespace Holds

variable {P : List (Deed ω) → Overlay → Prop} {ch : Chronicle ω}

theorem step (hP : Invariant P) (h : Holds P ch) {action : Node.Action ω}
    (himport : action.isImport = false) : Holds P (ch.step action) := by
  obtain ⟨⟨store, cache, context?⟩, past, present⟩ := ch
  cases action with
  | openContext height time =>
    cases context? with
    | some context => exact h
    | none =>
      obtain rfl : present = [] := h.closed rfl
      refine ⟨h.committed, ?_, fun hnone => by cases hnone⟩
      rintro _ ⟨⟩
      change P (past ++ []) ⟨store, ∅⟩
      rw [List.append_nil]
      exact h.committed
  | perform parent world request =>
    cases context? with
    | none => exact h
    | some context =>
      refine ⟨h.committed, ?_, fun hnone => by cases hnone⟩
      rintro _ ⟨⟩
      let d : Deed ω := ⟨store, parent, request, ⟨context, cache, world, []⟩⟩
      have hdeeds : (Chronicle.step ⟨⟨store, cache, some context⟩, past, present⟩
          (.perform parent world request)).deeds = (past ++ present) ++ [d] :=
        (List.append_assoc past present [d]).symm
      rw [hdeeds]
      exact hP.concat himport (h.staged context rfl)
  | commit logsEvents listener =>
    refine ⟨?_, ?_, fun _ => rfl⟩
    · cases context? with
      | none =>
        obtain rfl : present = [] := h.closed rfl
        change P (past ++ []) ⟨store, ∅⟩
        rw [List.append_nil]
        exact h.committed
      | some context =>
        refine hP.congr (fun k => ?_) (h.staged context rfl)
        exact (Overlay.get?_of_empty _ k).trans (Overlay.get?_of_write store context.updates k)
    · intro context hopen
      cases context? with
      | none => cases hopen
      | some context => cases hopen
  | drop => exact ⟨h.committed, fun context hopen => (by cases hopen), fun _ => rfl⟩
  | latestCompatible stack current => exact ⟨h.committed, h.staged, h.closed⟩
  | invalidate => exact ⟨h.committed, h.staged, h.closed⟩

theorem run (hP : Invariant P) (h : Holds P ch) {actions : List (Node.Action ω)}
    (himport : ∀ action ∈ actions, action.isImport = false) : Holds P (ch.run actions) := by
  induction actions generalizing ch with
  | nil => exact h
  | cons action actions ih =>
    exact ih (h.step hP (himport action List.mem_cons_self))
      fun a ha => himport a (List.mem_cons_of_mem _ ha)

/-- All that was done led to some state. -/
theorem exists_deeds (h : Holds P ch) : ∃ o, P ch.deeds o := by
  cases hcontext : ch.node.context? with
  | some context => exact ⟨_, h.staged context hcontext⟩
  | none =>
    rw [deeds, h.closed hcontext, List.append_nil]
    exact ⟨_, h.committed⟩

end Holds

/-- A statement that holds before anything is done holds of all that was done in a run. -/
theorem exists_deeds_run {P : List (Deed ω) → Overlay → Prop} (hP : Invariant P) {n : Node}
    (hcommitted : P [] ⟨n.store, ∅⟩)
    (hstaged : ∀ context, n.context? = some context → P [] ⟨n.store, context.updates⟩)
    {actions : List (Node.Action ω)} (himport : ∀ action ∈ actions, action.isImport = false) :
    ∃ o, P ((blank n).run actions).deeds o := by
  have hblank : Holds P (blank n) := ⟨hcommitted, hstaged, fun _ => rfl⟩
  exact (hblank.run hP himport).exists_deeds

/-! ### Marks -/

/-- A mark that something which was done leaves on the state: it is there afterwards, nothing that
is done to a state in order removes it, and it depends on nothing but the values under the keys. -/
structure Indelible (Mark : Deed ω → Overlay → Prop) : Prop where
  left : ∀ d : Deed ω, Orderly d.before → d.request.isImport = false → Mark d d.after
  kept : ∀ d e : Deed ω, Orderly e.before → e.request.isImport = false →
    Mark d e.before → Mark d e.after
  congr : ∀ (d : Deed ω) (o o' : Overlay), o'.SameAs o → Mark d o → Mark d o'

/-- Marks are found where they should be, in a state that is in order. -/
structure Marked (Mark : Deed ω → Overlay → Prop) (deeds : List (Deed ω)) (o : Overlay) :
    Prop where
  orderly : Orderly o
  marks : ∀ d ∈ deeds, Mark d o
  found : deeds.Pairwise fun d e => Mark d e.before
  ordered : ∀ d ∈ deeds, Orderly d.before ∧ d.request.isImport = false

variable {Mark : Deed ω → Overlay → Prop}

theorem invariant_marked (hmark : Indelible Mark) : Invariant (Marked Mark) where
  congr {deeds o o'} hsame h := by
    obtain ⟨reg, hreg, hshows⟩ := h.orderly
    refine ⟨⟨reg, hreg, hshows.congr hsame⟩, fun d hd => ?_, h.found, h.ordered⟩
    exact hmark.congr d o o' hsame (h.marks d hd)
  concat {deeds e} himport h := by
    refine ⟨?_, ?_, ?_, ?_⟩
    · obtain ⟨reg, hreg, hshows⟩ := h.orderly
      exact Controller.perform_wellFormed himport hreg e.parent e.live hshows
    · intro d hd
      rcases List.mem_append.1 hd with hd | hd
      · exact hmark.kept d e h.orderly himport (h.marks d hd)
      · rw [List.mem_singleton.1 hd]
        exact hmark.left e h.orderly himport
    · rw [List.pairwise_append]
      refine ⟨h.found, List.pairwise_singleton .., fun d hd e' he' => ?_⟩
      rw [List.mem_singleton.1 he']
      exact h.marks d hd
    · intro d hd
      rcases List.mem_append.1 hd with hd | hd
      · exact h.ordered d hd
      · rw [List.mem_singleton.1 hd]
        exact ⟨h.orderly, himport⟩

/-- **A mark that no operation removes is found by all later ones**, in a chronicle that begins
blank at a node in order. -/
theorem pairwise_marked (hmark : Indelible Mark) {n : Node} (hn : n.InOrder)
    {actions : List (Node.Action ω)} (himport : ∀ action ∈ actions, action.isImport = false) :
    ((blank n).run actions).deeds.Pairwise (fun d e => Mark d e.before) ∧
      ∀ d ∈ ((blank n).run actions).deeds, Orderly d.before ∧ d.request.isImport = false := by
  have hblank {o : Overlay} (horderly : Orderly o) : Marked Mark [] o :=
    ⟨horderly, by simp, .nil, by simp⟩
  have hcommitted : Orderly (Overlay.mk n.store ∅) := by
    obtain ⟨reg, hreg, hshows⟩ := hn.committed
    exact ⟨reg, hreg, hshows.opened⟩
  obtain ⟨o, h⟩ := exists_deeds_run (invariant_marked hmark) (hblank hcommitted)
    (fun context hcontext => hblank (hn.staged context hcontext)) himport
  exact ⟨h.found, h.ordered⟩

end Chronicle

/-! ### Links -/

/-- From one state to another, by way of what was done: each finds what the one before it left. -/
inductive Deed.Link : Overlay → List (Deed ω) → Overlay → Prop
  | nil {o o' : Overlay} (same : o'.SameAs o) : Link o [] o'
  | cons {o o' : Overlay} {d : Deed ω} {deeds : List (Deed ω)} (same : d.before.SameAs o)
      (rest : Link d.after deeds o') : Link o (d :: deeds) o'

namespace Deed.Link

variable {o o' o'' : Overlay} {d : Deed ω} {deeds front back : List (Deed ω)}

theorem congr (h : Link o deeds o') (hsame : o''.SameAs o') : Link o deeds o'' := by
  induction h with
  | nil same => exact .nil fun k => (hsame k).trans (same k)
  | cons same _ ih => exact .cons same (ih hsame)

theorem concat (h : Link o deeds d.before) : Link o (deeds ++ [d]) d.after := by
  generalize hbefore : d.before = o' at h
  induction h with
  | nil same =>
    subst hbefore
    exact .cons same (.nil fun _ => rfl)
  | cons same _ ih => exact .cons same (ih hbefore)

/-- What comes after something that was done begins with what it left. -/
theorem after (h : Link o (front ++ d :: back) o') : Link d.after back o' := by
  induction front generalizing o with
  | nil =>
    cases h with
    | cons _ rest => exact rest
  | cons e front ih =>
    cases h with
    | cons _ rest => exact ih rest

/-- What comes before something that was done ends with what it found. -/
theorem before (h : Link o (front ++ d :: back) o') : Link o front d.before := by
  induction front generalizing o with
  | nil =>
    cases h with
    | cons same _ => exact .nil same
  | cons e front ih =>
    cases h with
    | cons same rest => exact .cons same (ih rest)

/-- **What holds in the end has held all along, or since something was done.** -/
theorem since {P : Overlay → Prop} (hP : ∀ o o', o.SameAs o' → (P o ↔ P o'))
    (h : Link o deeds o') (hafter : P o') : (P o ∧ ∀ d ∈ deeds, P d.after) ∨
      ∃ early d late, deeds = early ++ d :: late ∧ ¬ P d.before ∧ ∀ e ∈ d :: late, P e.after := by
  induction h with
  | nil same => exact .inl ⟨(hP _ _ same).1 hafter, fun _ hd => absurd hd List.not_mem_nil⟩
  | @cons o o' d deeds same _ ih =>
    rcases ih hafter with ⟨hd, hall⟩ | ⟨early, e, late, rfl, hbefore, hall⟩
    · have hall : ∀ e ∈ d :: deeds, P e.after := List.forall_mem_cons.2 ⟨hd, hall⟩
      by_cases hbefore : P d.before
      · exact .inl ⟨(hP _ _ same).1 hbefore, hall⟩
      · exact .inr ⟨[], d, deeds, rfl, hbefore, hall⟩
    · exact .inr ⟨d :: early, e, late, rfl, hbefore, hall⟩

/-- **What is different was changed in between.** -/
theorem exists_change {P : Overlay → Prop} (hP : ∀ o o', o.SameAs o' → (P o ↔ P o'))
    (h : Link o deeds o') (hbefore : ¬ P o) (hafter : P o') :
    ∃ d ∈ deeds, ¬ P d.before ∧ P d.after := by
  rcases h.since hP hafter with ⟨hall, -⟩ | ⟨early, d, late, rfl, hchanges, hall⟩
  · exact absurd hall hbefore
  · exact ⟨d, List.mem_append_right _ List.mem_cons_self, hchanges, hall d List.mem_cons_self⟩

end Deed.Link

namespace Chronicle

/-- What was done leads from where the chronicle begins to some state. -/
theorem exists_link_run {P : Overlay → Prop} {n : Node} (hcommitted : P ⟨n.store, ∅⟩)
    (hstaged : ∀ context, n.context? = some context → P ⟨n.store, context.updates⟩)
    {actions : List (Node.Action ω)} (himport : ∀ action ∈ actions, action.isImport = false) :
    ∃ o₀ o, P o₀ ∧ Deed.Link o₀ ((blank n).run actions).deeds o := by
  have hlink : Invariant fun (deeds : List (Deed ω)) o => ∃ o₀, P o₀ ∧ Deed.Link o₀ deeds o :=
    ⟨fun hsame ⟨o₀, hstart, hlink⟩ => ⟨o₀, hstart, hlink.congr hsame⟩,
      fun _ ⟨o₀, hstart, hlink⟩ => ⟨o₀, hstart, hlink.concat⟩⟩
  obtain ⟨o, o₀, hstart, hlink⟩ := exists_deeds_run hlink ⟨_, hcommitted, .nil fun _ => rfl⟩
    (fun context hcontext => ⟨_, hstaged context hcontext, .nil fun _ => rfl⟩) himport
  exact ⟨o₀, o, hstart, hlink⟩

/-- **Each operation finds what the one before it left**, in a chronicle that begins blank. -/
theorem link_run {n : Node} {actions : List (Node.Action ω)}
    (himport : ∀ action ∈ actions, action.isImport = false) {front middle back : List (Deed ω)}
    {d e : Deed ω} (h : ((blank n).run actions).deeds = front ++ d :: (middle ++ e :: back)) :
    Deed.Link d.after middle e.before := by
  obtain ⟨o₀, o, -, hlink⟩ :=
    exists_link_run (P := fun _ => True) trivial (fun _ _ => trivial) himport
  rw [h] at hlink
  exact hlink.after.before

end Chronicle

end Chainlets
