import Chainlets.Proofs.Data.OrderedMap
import Chainlets.Proofs.Version.Spelling
import Chainlets.VersionTree.Basic

/-!
# What a version tree tracks

A version tree is three levels of maps under the names of stacks, but all that counts is which
releases of which stacks it tracks: a tree without empty nodes is determined by them. So an update
of the tree is described by what it does to the tracked releases, and two trees are compared release
by release.

Lookups below a node that is not there are lookups in an empty one. In this form an insertion and a
removal are each one change at one place of each level.

## Main definitions

* `VersionTree.Tracks` — a release of a stack is in the tree.
* `VersionTree.Pruned` — no node of the tree is empty.

## Main results

* `VersionTree.ext_tracks` — **a tree without empty nodes is determined by what it tracks.**
* `VersionTree.tracks_track`, `VersionTree.tracks_untrack`, with `Pruned.track` and
  `Pruned.untrack` — what updates do.
* `VersionTree.add_of_isRelease`, `VersionTree.remove_of_isRelease` — the same on version texts.
-/

namespace Chainlets

/-! ### Nodes -/

namespace OrderedMap

universe u v w

variable {α : Type u} {β : Type v} {γ : Type w} [Ord α] [Std.TransOrd α] [Std.LawfulEqOrd α]

omit [Std.TransOrd α] [Std.LawfulEqOrd α] in
theorem isEmpty_iff {m : OrderedMap α β} : m.isEmpty = true ↔ m = ∅ := by
  rw [isEmpty, List.isEmpty_iff]
  exact ⟨fun h => ext h, fun h => by rw [h]; rfl⟩

omit [Std.TransOrd α] in
/-- A map that is not empty holds a value. -/
theorem exists_get?_of_ne_empty {m : OrderedMap α β} (h : m ≠ ∅) :
    ∃ k v, m.get? k = some v := by
  cases hm : m.toList with
  | nil => exact absurd (ext hm) h
  | cons p l => exact ⟨p.1, p.2, get?_eq_some_iff.2 (by rw [hm]; exact List.mem_cons_self)⟩

theorem insert_ne_empty (m : OrderedMap α β) (k : α) (v : β) : m.insert k v ≠ ∅ := by
  intro h
  have hget := get?_insert_self m k v
  rw [h] at hget
  cases hget

/-- Maps whose values all have members are equal if the members under each key are the same, and if
values with the same members are equal. -/
theorem ext_members {m n : OrderedMap α β} {P : β → γ → Prop}
    (hm : ∀ {k b}, m.get? k = some b → ∃ c, P b c) (hn : ∀ {k b}, n.get? k = some b → ∃ c, P b c)
    (hext : ∀ {k b b'}, m.get? k = some b → n.get? k = some b' → (∀ c, P b c ↔ P b' c) → b = b')
    (h : ∀ k c, (∃ b, m.get? k = some b ∧ P b c) ↔ ∃ b, n.get? k = some b ∧ P b c) : m = n := by
  refine ext_get? fun k => ?_
  have hk := h k
  cases hmk : m.get? k with
  | none =>
    cases hnk : n.get? k with
    | none => rfl
    | some b' =>
      obtain ⟨c, hc⟩ := hn hnk
      obtain ⟨b, hb, -⟩ := (hk c).2 ⟨b', hnk, hc⟩
      rw [hmk] at hb
      cases hb
  | some b =>
    obtain ⟨c, hc⟩ := hm hmk
    obtain ⟨b', hb', -⟩ := (hk c).1 ⟨b, hmk, hc⟩
    rw [hb']
    refine congrArg some (hext hmk hb' fun d => ?_)
    have hd := hk d
    simp only [hmk, hb', Option.some.injEq, exists_eq_left'] at hd
    exact hd

end OrderedMap

/-! ### The releases of one stack -/

namespace ReleaseTree

open OrderedMap (get?_insert get?_alter)

/-- No node is empty. -/
def Pruned (t : ReleaseTree) : Prop :=
  ∀ major minors, OrderedMap.get? t major = some minors →
    minors ≠ ∅ ∧ ∀ minor patches, minors.get? minor = some patches → patches ≠ ∅

theorem prune_eq_some_iff {α β : Type} [Ord α] {m n : OrderedMap α β} :
    prune m = some n ↔ m = n ∧ n ≠ ∅ := by
  rw [prune]
  split
  next h =>
    have hm := OrderedMap.isEmpty_iff.1 h
    simp only [reduceCtorEq, false_iff]
    rintro ⟨rfl, hne⟩
    exact hne hm
  next h =>
    rw [OrderedMap.isEmpty_iff] at h
    simp only [Option.some.injEq]
    exact ⟨fun heq => ⟨heq, heq ▸ h⟩, fun heq => heq.1⟩

theorem getD_prune {α β : Type} [Ord α] (m : OrderedMap α β) : (prune m).getD ∅ = m := by
  rw [prune]
  split
  next h => exact (OrderedMap.isEmpty_iff.1 h).symm
  next => rfl

/-- A change below a node that may not be there, which leaves no empty node, is the change of the
node that is there or of an empty one. -/
theorem getD_bind_prune {α β : Type} [Ord α] {f : OrderedMap α β → OrderedMap α β} (h : f ∅ = ∅)
    (m? : Option (OrderedMap α β)) : (m?.bind fun m => prune (f m)).getD ∅ = f (m?.getD ∅) := by
  cases m? with
  | none => exact h.symm
  | some m => exact getD_prune (f m)

/-- Whether a release is in the tree, with lookups in empty nodes where there are none. -/
theorem contains_eq (t : ReleaseTree) (r : Release) :
    t.contains r =
      OrderedMap.contains ((((OrderedMap.get? t r.major).getD ∅).get? r.minor).getD ∅) r.patch := by
  rw [contains]
  cases OrderedMap.get? t r.major with
  | none => rfl
  | some minors =>
    simp only [Option.getD_some]
    cases minors.get? r.minor with
    | none => rfl
    | some patches => rfl

theorem contains_iff {t : ReleaseTree} {r : Release} :
    t.contains r = true ↔ ∃ minors, OrderedMap.get? t r.major = some minors ∧
      ∃ patches, minors.get? r.minor = some patches ∧ patches.contains r.patch = true := by
  rw [contains]
  cases OrderedMap.get? t r.major with
  | none => simp
  | some minors =>
    cases hminors : minors.get? r.minor with
    | none => simp [hminors]
    | some patches => simp [hminors]

theorem contains_empty (r : Release) : (∅ : ReleaseTree).contains r = false := rfl

/-- A tree that is not empty has a release in it. -/
theorem Pruned.exists_contains {t : ReleaseTree} (h : t.Pruned) (hne : t ≠ ∅) :
    ∃ r, t.contains r = true := by
  obtain ⟨major, minors, hminors⟩ := OrderedMap.exists_get?_of_ne_empty hne
  obtain ⟨hne, hpatches⟩ := h _ _ hminors
  obtain ⟨minor, patches, hminor⟩ := OrderedMap.exists_get?_of_ne_empty hne
  obtain ⟨patch, u, hpatch⟩ := OrderedMap.exists_get?_of_ne_empty (hpatches _ _ hminor)
  exact ⟨⟨major, minor, patch⟩,
    contains_iff.2 ⟨minors, hminors, patches, hminor, by rw [OrderedMap.contains, hpatch]; rfl⟩⟩

/-- A tree without empty nodes is determined by the releases in it. -/
theorem Pruned.ext {t t' : ReleaseTree} (h : t.Pruned) (h' : t'.Pruned)
    (heq : ∀ r, t.contains r = true ↔ t'.contains r = true) : t = t' := by
  have member {t : ReleaseTree} (h : t.Pruned) {major minors}
      (hget : OrderedMap.get? t major = some minors) :
      ∃ c : UInt64 × UInt64, ∃ patches, minors.get? c.1 = some patches ∧
        patches.contains c.2 = true := by
    obtain ⟨hne, hpatches⟩ := h _ _ hget
    obtain ⟨minor, patches, hminor⟩ := OrderedMap.exists_get?_of_ne_empty hne
    obtain ⟨patch, u, hpatch⟩ := OrderedMap.exists_get?_of_ne_empty (hpatches _ _ hminor)
    exact ⟨(minor, patch), patches, hminor, by rw [OrderedMap.contains, hpatch]; rfl⟩
  have patchOf {t : ReleaseTree} (h : t.Pruned) {major minors minor patches}
      (hget : OrderedMap.get? t major = some minors) (hminor : minors.get? minor = some patches) :
      ∃ patch, patches.contains patch = true := by
    obtain ⟨patch, u, hpatch⟩ := OrderedMap.exists_get?_of_ne_empty ((h _ _ hget).2 _ _ hminor)
    exact ⟨patch, by rw [OrderedMap.contains, hpatch]; rfl⟩
  refine OrderedMap.ext_members (P := fun minors (c : UInt64 × UInt64) =>
    ∃ patches, minors.get? c.1 = some patches ∧ patches.contains c.2 = true)
    (member h) (member h') (fun {major minors minors'} hm hm' hsame => ?_)
    fun major c => ?_
  · -- The minor numbers of one major number, compared patch number by patch number.
    refine OrderedMap.ext_members (P := fun patches patch => patches.contains patch = true)
      (patchOf h hm) (patchOf h' hm') (fun {minor patches patches'} _ _ hsame => ?_)
      fun minor patch => hsame (minor, patch)
    refine OrderedMap.ext_get? fun patch => ?_
    have hpatch := hsame patch
    simp only [OrderedMap.contains] at hpatch
    cases hp : patches.get? patch <;> cases hp' : patches'.get? patch <;> simp_all
  · have hrelease := heq ⟨major, c.1, c.2⟩
    rw [contains_iff, contains_iff] at hrelease
    exact hrelease

/-! What an insertion does. -/

theorem contains_insert (t : ReleaseTree) (r r' : Release) :
    (t.insert r).contains r' = true ↔ r' = r ∨ t.contains r' = true := by
  obtain ⟨major, minor, patch⟩ := r
  obtain ⟨major', minor', patch'⟩ := r'
  rw [contains_eq, contains_eq, insert, OrderedSet.add]
  by_cases hmajor : major' = major
  · subst hmajor
    by_cases hminor : minor' = minor
    · subst hminor
      by_cases hpatch : patch' = patch
      · simp [hpatch, OrderedMap.contains]
      · simp [hpatch, OrderedMap.contains, OrderedMap.get?_insert]
    · simp [hminor, OrderedMap.get?_insert]
  · simp [hmajor, OrderedMap.get?_insert]

theorem Pruned.insert {t : ReleaseTree} (h : t.Pruned) (r : Release) : (t.insert r).Pruned := by
  intro major minors hget
  rw [ReleaseTree.insert, get?_insert] at hget
  split at hget
  next =>
    cases hget
    refine ⟨OrderedMap.insert_ne_empty _ _ _, fun minor patches hpatches => ?_⟩
    rw [get?_insert] at hpatches
    split at hpatches
    next => cases hpatches; exact OrderedMap.insert_ne_empty _ _ _
    next =>
      cases hold : OrderedMap.get? t r.major with
      | none => rw [hold] at hpatches; cases hpatches
      | some old => rw [hold] at hpatches; exact (h _ _ hold).2 _ _ hpatches
  next => exact h _ _ hget

/-! What a removal does. -/

theorem contains_erase (t : ReleaseTree) (r r' : Release) :
    (t.erase r).contains r' = true ↔ r' ≠ r ∧ t.contains r' = true := by
  obtain ⟨major, minor, patch⟩ := r
  obtain ⟨major', minor', patch'⟩ := r'
  have hpatches (patches? : Option (OrderedSet UInt64)) :
      (patches?.bind fun patches => prune (patches.erase patch)).getD ∅ =
        (patches?.getD ∅).erase patch := getD_bind_prune rfl patches?
  have hminors (minors? : Option (OrderedMap UInt64 (OrderedSet UInt64))) :
      (minors?.bind fun minors => prune <| minors.alter minor fun patches? =>
        patches?.bind fun patches => prune (patches.erase patch)).getD ∅ =
        (minors?.getD ∅).alter minor fun patches? =>
          patches?.bind fun patches => prune (patches.erase patch) := getD_bind_prune rfl minors?
  rw [contains_eq, contains_eq, erase]
  by_cases hmajor : major' = major
  · subst hmajor
    rw [get?_alter, if_pos rfl]
    simp only [Option.bind_eq_bind, hminors]
    rw [get?_alter]
    by_cases hminor : minor' = minor
    · subst hminor
      rw [if_pos rfl, hpatches, OrderedMap.contains, OrderedMap.get?_erase]
      by_cases hpatch : patch' = patch
      · simp [hpatch]
      · simp [hpatch, OrderedMap.contains]
    · simp [hminor]
  · rw [get?_alter, if_neg hmajor]
    simp [hmajor]

theorem Pruned.erase {t : ReleaseTree} (h : t.Pruned) (r : Release) : (t.erase r).Pruned := by
  intro major minors hget
  rw [ReleaseTree.erase, get?_alter] at hget
  split at hget
  next =>
    obtain ⟨old, hold, hprune⟩ := Option.bind_eq_some_iff.1 hget
    obtain ⟨rfl, hne⟩ := prune_eq_some_iff.1 hprune
    refine ⟨hne, fun minor patches hpatches => ?_⟩
    rw [get?_alter] at hpatches
    split at hpatches
    next =>
      obtain ⟨_, _, hprune⟩ := Option.bind_eq_some_iff.1 hpatches
      exact (prune_eq_some_iff.1 hprune).2
    next => exact (h _ _ hold).2 _ _ hpatches
  next => exact h _ _ hget

end ReleaseTree

/-! ### The releases of every stack -/

namespace VersionTree

open OrderedMap (get?_insert get?_alter)

/-- A release of a stack is in the tree. -/
def Tracks (t : VersionTree) (stack : String) (r : Release) : Prop :=
  ∃ releases, t.byStack.get? stack = some releases ∧ releases.contains r = true

/-- No node of the tree is empty. -/
def Pruned (t : VersionTree) : Prop :=
  ∀ stack releases, t.byStack.get? stack = some releases → releases ≠ ∅ ∧ releases.Pruned

theorem tracks_iff_getD {t : VersionTree} {stack : String} {r : Release} :
    t.Tracks stack r ↔ ((t.byStack.get? stack).getD ∅).contains r = true := by
  rw [Tracks]
  cases t.byStack.get? stack with
  | none => simp [ReleaseTree.contains_empty]
  | some releases => simp

/-- **A tree without empty nodes is determined by what it tracks.** -/
theorem ext_tracks {t t' : VersionTree} (h : t.Pruned) (h' : t'.Pruned)
    (heq : ∀ stack r, t.Tracks stack r ↔ t'.Tracks stack r) : t = t' := by
  have hmap : t.byStack = t'.byStack :=
    OrderedMap.ext_members (P := fun releases r => ReleaseTree.contains releases r = true)
      (fun hget => (h _ _ hget).2.exists_contains (h _ _ hget).1)
      (fun hget => (h' _ _ hget).2.exists_contains (h' _ _ hget).1)
      (fun hget hget' hsame => (h _ _ hget).2.ext (h' _ _ hget').2 hsame) heq
  cases t
  cases t'
  cases hmap
  rfl

theorem pruned_empty : (∅ : VersionTree).Pruned := fun _ _ hget => by cases hget

theorem not_tracks_empty (stack : String) (r : Release) : ¬ (∅ : VersionTree).Tracks stack r := by
  rintro ⟨releases, hget, -⟩
  cases hget

theorem tracks_track (t : VersionTree) (stack stack' : String) (r r' : Release) :
    (t.track stack r).Tracks stack' r' ↔ stack' = stack ∧ r' = r ∨ t.Tracks stack' r' := by
  rw [tracks_iff_getD, tracks_iff_getD, track, get?_insert]
  by_cases hstack : stack' = stack
  · rw [if_pos hstack, Option.getD_some, ReleaseTree.contains_insert, hstack]
    simp
  · simp [hstack]

theorem Pruned.track {t : VersionTree} (h : t.Pruned) (stack : String) (r : Release) :
    (t.track stack r).Pruned := by
  intro stack' releases hget
  rw [VersionTree.track, get?_insert] at hget
  split at hget
  next =>
    cases hget
    refine ⟨OrderedMap.insert_ne_empty _ _ _, ReleaseTree.Pruned.insert ?_ r⟩
    cases hold : t.byStack.get? stack with
    | none => intro major minors hminors; cases hminors
    | some old => exact (h _ _ hold).2
  next => exact h _ _ hget

theorem tracks_untrack (t : VersionTree) (stack stack' : String) (r r' : Release) :
    (t.untrack stack r).Tracks stack' r' ↔ ¬ (stack' = stack ∧ r' = r) ∧ t.Tracks stack' r' := by
  have hgetD (releases? : Option ReleaseTree) :
      (releases?.bind fun t => ReleaseTree.prune (t.erase r)).getD ∅ = (releases?.getD ∅).erase r :=
    ReleaseTree.getD_bind_prune rfl releases?
  rw [tracks_iff_getD, tracks_iff_getD, untrack, get?_alter]
  by_cases hstack : stack' = stack
  · rw [if_pos hstack, hgetD, ReleaseTree.contains_erase, hstack]
    simp
  · simp [hstack]

theorem Pruned.untrack {t : VersionTree} (h : t.Pruned) (stack : String) (r : Release) :
    (t.untrack stack r).Pruned := by
  intro stack' releases hget
  rw [VersionTree.untrack, get?_alter] at hget
  split at hget
  next =>
    obtain ⟨old, hold, hprune⟩ := Option.bind_eq_some_iff.1 hget
    obtain ⟨rfl, hne⟩ := ReleaseTree.prune_eq_some_iff.1 hprune
    exact ⟨hne, (h _ _ hold).2.erase r⟩
  next => exact h _ _ hget

/-! ### Version texts -/

theorem hasSuffix_eq_false_iff {v : Version} :
    v.hasSuffix = false ↔ v = ⟨v.release, "", ""⟩ := by
  cases v with
  | mk release pre build => simp [Version.hasSuffix]

theorem isRelease_iff_of_parse {version : String} {v : Version}
    (h : Version.parse version = .ok v) {r : Release} :
    Version.IsRelease version r ↔ v.hasSuffix = false ∧ r = v.release := by
  rw [Version.IsRelease, h, Except.ok.injEq]
  constructor
  · rintro rfl
    exact ⟨rfl, rfl⟩
  · rintro ⟨hbare, rfl⟩
    exact hasSuffix_eq_false_iff.1 hbare

/-- A version that has a suffix is neither added nor removed. -/
theorem add_of_parse (t : VersionTree) (stack : String) {version : String} {v : Version}
    (h : Version.parse version = .ok v) :
    t.add stack version = .ok (if v.hasSuffix then t else t.track stack v.release) := by
  rw [add, h]
  rfl

theorem remove_of_parse (t : VersionTree) (stack : String) {version : String} {v : Version}
    (h : Version.parse version = .ok v) :
    t.remove stack version = .ok (if v.hasSuffix then t else t.untrack stack v.release) := by
  rw [remove, h]
  rfl

/-- **A version goes into the tree as its release, or not at all if it has a suffix.** -/
theorem add_ok (t : VersionTree) (stack : String) {version : String} {v : Version}
    (h : Version.parse version = .ok v) :
    ∃ t', t.add stack version = .ok t' ∧ (t.Pruned → t'.Pruned) ∧
      ∀ stack' r, t'.Tracks stack' r ↔
        stack' = stack ∧ Version.IsRelease version r ∨ t.Tracks stack' r := by
  refine ⟨_, t.add_of_parse stack h, ?_, fun stack' r => ?_⟩
  · split
    next => exact id
    next => exact fun hp => hp.track stack v.release
  · rw [isRelease_iff_of_parse h]
    cases v.hasSuffix with
    | true => simp
    | false => simp [tracks_track]

/-- A version leaves the tree as its release, or changes nothing if it has a suffix. -/
theorem remove_ok (t : VersionTree) (stack : String) {version : String} {v : Version}
    (h : Version.parse version = .ok v) :
    ∃ t', t.remove stack version = .ok t' ∧ (t.Pruned → t'.Pruned) ∧
      ∀ stack' r, t'.Tracks stack' r ↔
        ¬ (stack' = stack ∧ Version.IsRelease version r) ∧ t.Tracks stack' r := by
  refine ⟨_, t.remove_of_parse stack h, ?_, fun stack' r => ?_⟩
  · split
    next => exact id
    next => exact fun hp => hp.untrack stack v.release
  · rw [isRelease_iff_of_parse h]
    cases v.hasSuffix with
    | true => simp
    | false => simp [tracks_untrack]

end VersionTree

end Chainlets
