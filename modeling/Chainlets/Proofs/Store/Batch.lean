import Chainlets.Context
import Chainlets.Proofs.Store.Written
import Mathlib.Data.List.Nodup

/-!
# The batch that a host is given

A context buffers changes of the store, and hands them to the host as a batch: the new values first,
the deletions after them, each in key order. Three things have to come to the same: reading through
the context, writing the batch, and making the changes one by one as they were asked for. They do,
whatever was overwritten, deleted, put back, or rolled back on the way.

A host need not write the batch in the order in which it is given. No key occurs twice in a batch,
so that its parts can be written in any order.

## Main definitions

* `Change` — a value that is set, or a key that is deleted — with `Store.apply`.
* `Updates.batch` — what a host is given to write.
* `Draft` — what is done to the buffered writes of a context, rollbacks included.

## Main results

* `Updates.Consistent.apply_eq_of_perm` — a batch can be written in any order.
* `Draft.write_run` — the batch does what the changes that were kept do one by one.
* `Draft.reads_written` — **a context is read like the store after its batch is written.**
-/

namespace Chainlets

/-- A store is determined by its lookups. -/
theorem Store.ext_get? {s s' : Store} (h : ∀ k, Readable.get? s k = Readable.get? s' k) :
    s = s' := by
  obtain ⟨entries⟩ := s
  obtain ⟨entries'⟩ := s'
  have hentries : entries = entries' := OrderedMap.ext_get? h
  rw [hentries]

/-! ### Changes -/

/-- One change of a store. -/
inductive Change where
  /-- A key is given a value. -/
  | set (k v : Bytes)
  /-- A key loses its value. -/
  | delete (k : Bytes)
deriving DecidableEq

namespace Change

/-- The key whose value changes. -/
def key : Change → Bytes
  | set k _ => k
  | delete k => k

/-- The value that the key has afterwards. -/
def value? : Change → Option Bytes
  | set _ v => some v
  | delete _ => none

/-- The store after the change. -/
def apply (s : Store) : Change → Store
  | set k v => s.set k v
  | delete k => s.delete k

/-- The updates after the change was buffered. -/
def buffer (u : Updates) : Change → Updates
  | set k v => u.insert k v
  | delete k => u.delete k

theorem get?_apply (s : Store) (c : Change) (k : Bytes) :
    Readable.get? (c.apply s) k = if k = c.key then c.value? else Readable.get? s k := by
  cases c with
  | set k' v => exact Store.get?_set s k' k v
  | delete k' => exact Store.get?_delete s k' k

theorem get?_buffer (s : Store) (u : Updates) (c : Change) (k : Bytes) :
    Readable.get? (Overlay.mk s (c.buffer u)) k =
      if k = c.key then c.value? else Readable.get? (Overlay.mk s u) k := by
  cases c with
  | set k' v => exact Overlay.get?_of_insert s u k' k v
  | delete k' => exact Overlay.get?_of_delete s u k' k

/-- Changes of different keys can be made in either order. -/
theorem apply_comm {c c' : Change} (h : c.key ≠ c'.key) (s : Store) :
    c'.apply (c.apply s) = c.apply (c'.apply s) := by
  refine Store.ext_get? fun k => ?_
  rw [get?_apply, get?_apply, get?_apply, get?_apply]
  by_cases hk : k = c.key
  · have hk' : k ≠ c'.key := hk ▸ h
    rw [if_neg hk', if_pos hk, if_pos hk]
  · rw [if_neg hk, if_neg hk]

end Change

/-- The store after changes, one after the other. -/
def Store.apply (s : Store) (changes : List Change) : Store := changes.foldl Change.apply s

/-! ### Batches -/

namespace Updates

/-- What a host is given to write: the new values, and then the deletions. -/
def batch (u : Updates) : List Change :=
  u.inserts.toList.map (fun e => .set e.1 e.2) ++ u.deletes.keys.map .delete

/-- The updates after changes were buffered, one after the other. -/
def buffer (u : Updates) (changes : List Change) : Updates := changes.foldl Change.buffer u

/-- Updates are written by writing their batch. -/
theorem apply_batch (s : Store) (u : Updates) : s.apply u.batch = s.write u := by
  rw [Store.apply, batch, List.foldl_append, List.foldl_map, List.foldl_map]
  rfl

theorem Consistent.buffer {u : Updates} (h : u.Consistent) (changes : List Change) :
    (u.buffer changes).Consistent := by
  induction changes generalizing u with
  | nil => exact h
  | cons c changes ih =>
    cases c with
    | set k v => exact ih (h.insert k v)
    | delete k => exact ih (h.delete k)

/-- What has a new value is not deleted. -/
theorem Consistent.not_mem_deletes {u : Updates} (h : u.Consistent) {k : Bytes}
    (hk : k ∈ u.inserts.keys) : k ∉ u.deletes.keys := by
  rw [OrderedMap.mem_keys_iff, OrderedMap.contains] at hk ⊢
  rcases h k with hnone | hnone
  · rw [hnone] at hk
    cases hk
  · rw [hnone]
    simp

/-- No key occurs twice in a batch. -/
theorem Consistent.nodup_batch {u : Updates} (h : u.Consistent) :
    (u.batch.map Change.key).Nodup := by
  have hkeys : u.batch.map Change.key = u.inserts.keys ++ u.deletes.keys := by
    rw [batch, List.map_append, List.map_map, List.map_map]
    exact congrArg (u.inserts.keys ++ ·) (List.map_id _)
  rw [hkeys, List.nodup_append]
  refine ⟨?_, ?_, ?_⟩
  · exact List.pairwise_map.2 (OrderedMap.distinct_of_ascending u.inserts.ascending)
  · exact List.pairwise_map.2 (OrderedMap.distinct_of_ascending u.deletes.ascending)
  · rintro k hk _ hk' rfl
    exact h.not_mem_deletes hk hk'

/-- **A batch can be written in any order.** -/
theorem Consistent.apply_eq_of_perm {u : Updates} (h : u.Consistent) (s : Store)
    {changes : List Change} (hperm : changes.Perm u.batch) : s.apply changes = s.write u := by
  rw [← apply_batch]
  refine hperm.foldl_eq' (fun c hc c' hc' s => ?_) s
  by_cases hkey : c.key = c'.key
  · rw [List.inj_on_of_nodup_map h.nodup_batch (hperm.mem_iff.1 hc) (hperm.mem_iff.1 hc') hkey]
  · exact Change.apply_comm hkey s

end Updates

/-- A change that is buffered is made when the updates are written. -/
theorem Store.write_buffer (s : Store) (u : Updates) (changes : List Change) :
    s.write (u.buffer changes) = (s.write u).apply changes := by
  induction changes generalizing u with
  | nil => rfl
  | cons c changes ih =>
    have hone : s.write (c.buffer u) = c.apply (s.write u) := Store.ext_get? fun k => by
      rw [Overlay.get?_of_write, Change.get?_buffer, Change.get?_apply, Overlay.get?_of_write]
    rw [Updates.buffer, List.foldl_cons, ← Updates.buffer, ih, hone]
    rfl

/-! ### What is done to a context -/

/-- What is done to the buffered writes of a context: one change after the other, and sections in
between, which are rolled back if they fail. -/
inductive Draft where
  | done
  /-- Buffer a change, and go on. -/
  | change (c : Change) (next : Draft)
  /-- Run a section, and go on. -/
  | attempt (inner : Draft) (succeeds : Bool) (next : Draft)

namespace Draft

/-- The context afterwards. -/
def run : Draft → Context → Context
  | .done, context => context
  | .change c next, context => next.run { context with updates := c.buffer context.updates }
  | .attempt inner succeeds next, context =>
    next.run (if succeeds then inner.run context else context.rollback (inner.run context))

/-- The changes that were not rolled back, in order. -/
def kept : Draft → List Change
  | .done => []
  | .change c next => c :: next.kept
  | .attempt inner succeeds next => (if succeeds then inner.kept else []) ++ next.kept

/-- What is buffered are the changes that were kept: a section that fails leaves none. -/
theorem updates_run (draft : Draft) (context : Context) :
    (draft.run context).updates = context.updates.buffer draft.kept := by
  induction draft generalizing context with
  | done => rfl
  | change c next ih => exact ih _
  | attempt inner succeeds next ihinner ihnext =>
    rw [run, ihnext, kept, Updates.buffer, Updates.buffer, List.foldl_append]
    cases succeeds with
    | false => rfl
    | true =>
      rw [if_pos rfl, if_pos rfl, ihinner]
      rfl

theorem consistent_run (draft : Draft) (height : Height) (time : Time) :
    (draft.run (.fresh height time)).updates.Consistent := by
  rw [updates_run]
  exact Updates.consistent_empty.buffer _

/-- **Writing what is buffered does what the changes that were kept do one by one.** -/
theorem write_run (s : Store) (draft : Draft) (height : Height) (time : Time) :
    s.write (draft.run (.fresh height time)).updates = s.apply draft.kept := by
  rw [updates_run, Store.write_buffer]
  rfl

/-- **A context is read like the store after its batch is written**, by lookups and by scans, which
show each key once and in ascending order. The store is the same in whichever order the batch is
written, since no key is both set and deleted, and it is what the changes that were kept make of it
one by one. -/
theorem reads_written (s : Store) (draft : Draft) (height : Height) (time : Time) :
    let u := (draft.run (.fresh height time)).updates
    (∀ k, Readable.get? (Overlay.mk s u) k = Readable.get? (s.write u) k) ∧
      (∀ front, Readable.scan (Overlay.mk s u) front = Readable.scan (s.write u) front ∧
        (Readable.scan (Overlay.mk s u) front).Pairwise fun p q => compare p.1 q.1 = .lt) ∧
      (∀ k ∈ u.inserts.keys, k ∉ u.deletes.keys) ∧
      (∀ changes, changes.Perm u.batch → s.apply changes = s.write u) ∧
      s.write u = s.apply draft.kept := by
  intro u
  have hconsistent : u.Consistent := draft.consistent_run height time
  have hget : ∀ k, Readable.get? (Overlay.mk s u) k = Readable.get? (s.write u) k := fun k =>
    (Overlay.get?_of_write s u k).symm
  refine ⟨hget, fun front => ⟨?_, ascending_scan _ front⟩, fun k => hconsistent.not_mem_deletes,
    fun changes => hconsistent.apply_eq_of_perm s, draft.write_run s height time⟩
  exact Readable.scan_congr fun k _ => hget k

/-- A key that is set, deleted in a section that fails, and set anew has the new value. -/
example :
    Readable.get? ((∅ : Store).write (((Draft.change (.set [1] [2])
      (.attempt (.change (.delete [1]) .done) false (.change (.set [1] [3]) .done))).run
        (.fresh ⟨1⟩ ⟨0⟩)).updates)) [1] = some [3] := by decide

end Draft

end Chainlets
