import Mathlib.Data.List.Induction
import Chainlets.Proofs.Version.Precedence
import Chainlets.Proofs.VersionTree.Edits

/-!
# A version tree is what was added and not removed

Of a sequence of edits only the last one that concerns a version of a stack counts: the version is
in the tree if that edit was an addition, whatever was done to the versions beside it. The nodes
above the versions come and go with them, and leave no trace, so trees that hold the same versions
are the same tree however they came about.

Membership is asked for a text, and answered for the release that the text is read as. A text with a
suffix never enters the tree, yet it is found there if its release is.

## Main definitions

* `VersionTree.Remains` — a version was added to a stack, and not removed after that.
* `VersionTree.Refines` — a tree is the set of versions that a sequence of edits leaves.

## Main results

* `VersionTree.tracks_after` — what the tree tracks after a sequence of edits.
* `VersionTree.refines_after` — **an edited tree is the set of versions that remain, and nothing
  else.**
* `VersionTree.contains_iff_listed` — **membership agrees with the listing exactly on the texts
  without a suffix, and on those with one whose release is not there.**
-/

namespace Chainlets

/-! ### Listings ascend -/

/-- The releases of a tree are listed in ascending order. -/
theorem ReleaseTree.pairwise_releases (t : ReleaseTree) : t.releases.Pairwise (· < ·) := by
  rw [releases, List.pairwise_flatMap]
  refine ⟨?_, (OrderedMap.ascending t).imp ?_⟩
  · rintro ⟨major, minors⟩ -
    rw [List.pairwise_flatMap]
    refine ⟨?_, minors.ascending.imp ?_⟩
    · rintro ⟨minor, patches⟩ -
      exact List.pairwise_map.2 <| List.pairwise_map.2 <| patches.ascending.imp fun hlt =>
        .inr ⟨rfl, .inr ⟨rfl, Std.compare_eq_lt.1 hlt⟩⟩
    · intro p q hlt r hr s hs
      obtain ⟨_, -, rfl⟩ := List.mem_map.1 hr
      obtain ⟨_, -, rfl⟩ := List.mem_map.1 hs
      exact .inr ⟨rfl, .inl (Std.compare_eq_lt.1 hlt)⟩
  · intro p q hlt r hr s hs
    obtain ⟨_, -, hr⟩ := List.mem_flatMap.1 hr
    obtain ⟨_, -, rfl⟩ := List.mem_map.1 hr
    obtain ⟨_, -, hs⟩ := List.mem_flatMap.1 hs
    obtain ⟨_, -, rfl⟩ := List.mem_map.1 hs
    exact .inl (Std.compare_eq_lt.1 hlt)

/-- A text stands for a bare release exactly if it is its rendering. -/
theorem Version.isRelease_iff {text : String} {r : Release} :
    Version.IsRelease text r ↔ text = r.render :=
  ⟨Version.eq_render_of_isRelease, fun h => h ▸ Version.isRelease_render r⟩

theorem Release.render_injective {r s : Release} (h : r.render = s.render) : r = s := by
  have hr := Version.isRelease_render r
  rw [h, Version.IsRelease, Version.isRelease_render s] at hr
  cases hr
  rfl

namespace VersionTree

variable {t : VersionTree} {edits edits' : List Edit} {e : Edit} {stack text : String}

/-- One text comes before another as a version. -/
def Ascends (text text' : String) : Prop :=
  ∃ r r', Version.IsRelease text r ∧ Version.IsRelease text' r' ∧ r < r'

/-- The versions of a stack are listed in ascending order. -/
theorem pairwise_versions (t : VersionTree) (stack : String) :
    (t.versions stack).Pairwise Ascends := by
  rw [versions]
  cases t.byStack.get? stack with
  | none => exact .nil
  | some releases =>
    exact List.pairwise_map.2 (releases.pairwise_releases.imp fun {r s} hlt =>
      ⟨r, s, Version.isRelease_render r, Version.isRelease_render s, hlt⟩)

theorem Ascends.ne {text text' : String} (h : Ascends text text') : text ≠ text' := by
  rintro rfl
  obtain ⟨r, r', hr, hr', hlt⟩ := h
  cases hr.symm.trans hr'
  exact Release.lt_irrefl r hlt

/-- Without empty nodes, the stacks of the tree are those that it tracks a release of. -/
theorem Pruned.mem_stackNames_iff (h : t.Pruned) :
    stack ∈ t.stackNames ↔ ∃ r, t.Tracks stack r := by
  rw [stackNames, OrderedMap.mem_keys_iff, OrderedMap.contains, Option.isSome_iff_exists]
  constructor
  · rintro ⟨releases, hreleases⟩
    obtain ⟨hne, hpruned⟩ := h stack releases hreleases
    obtain ⟨r, hr⟩ := hpruned.exists_contains hne
    exact ⟨r, releases, hreleases, hr⟩
  · rintro ⟨r, releases, hreleases, -⟩
    exact ⟨releases, hreleases⟩

/-! ### One edit -/

/-- The text that an edit gives as a version. -/
def Edit.version : Edit → String
  | .add _ version => version
  | .remove _ version => version

/-- The call that an edit stands for. -/
def Edit.call (t : VersionTree) : Edit → Except VersionError VersionTree
  | .add stack version => t.add stack version
  | .remove stack version => t.remove stack version

theorem edit_eq_call (t : VersionTree) (e : Edit) : t.edit e = (e.call t).toOption.getD t := by
  cases e with
  | add stack version => rfl
  | remove stack version => rfl

/-- A call with a text that is no version fails with what is wrong with the text. -/
theorem Edit.call_of_error (t : VersionTree) {e : Edit} {fault : VersionError}
    (h : Version.parse e.version = .error fault) : e.call t = .error fault := by
  cases e with
  | add stack version =>
    change Version.parse version = .error fault at h
    rw [call, VersionTree.add, h]
    rfl
  | remove stack version =>
    change Version.parse version = .error fault at h
    rw [call, VersionTree.remove, h]
    rfl

/-- A call with a version succeeds, and leaves the tree alone if the version has a suffix. -/
theorem Edit.call_of_ok (t : VersionTree) {e : Edit} {v : Version}
    (h : Version.parse e.version = .ok v) :
    e.call t = .ok (t.edit e) ∧ (v.hasSuffix = true → t.edit e = t) := by
  cases e with
  | add stack version =>
    change Version.parse version = .ok v at h
    rw [call, edit, t.add_of_parse stack h]
    exact ⟨rfl, fun hsuffix => by rw [if_pos hsuffix]; rfl⟩
  | remove stack version =>
    change Version.parse version = .ok v at h
    rw [call, edit, t.remove_of_parse stack h]
    exact ⟨rfl, fun hsuffix => by rw [if_pos hsuffix]; rfl⟩

/-- **After an edit, a release is tracked if the edit added it, or if it was tracked and the edit
did not remove it.** -/
theorem tracks_edit (t : VersionTree) (e : Edit) (stack : String) (r : Release) :
    (t.edit e).Tracks stack r ↔
      e = .add stack r.render ∨ e ≠ .remove stack r.render ∧ t.Tracks stack r := by
  cases hv : Version.parse e.version with
  | error fault =>
    have hne : e.version ≠ r.render := fun heq => by
      rw [heq, Version.isRelease_render r] at hv
      cases hv
    rw [edit_eq_call, e.call_of_error t hv]
    constructor
    · exact fun h => .inr ⟨fun heq => hne (heq ▸ rfl), h⟩
    · rintro (rfl | ⟨-, h⟩)
      · exact absurd rfl hne
      · exact h
  | ok v =>
    cases e with
    | add stack' version =>
      change Version.parse version = .ok v at hv
      obtain ⟨t', hadd, -, htracks⟩ := t.add_ok stack' hv
      rw [edit, hadd, Edit.add.injEq]
      refine (htracks stack r).trans ?_
      rw [Version.isRelease_iff, eq_comm (a := stack)]
      simp
    | remove stack' version =>
      change Version.parse version = .ok v at hv
      obtain ⟨t', hremove, -, htracks⟩ := t.remove_ok stack' hv
      rw [edit, hremove, ne_eq, Edit.remove.injEq]
      refine (htracks stack r).trans ?_
      rw [Version.isRelease_iff, eq_comm (a := stack)]
      simp

/-! ### Sequences of edits -/

/-- A version was added to a stack, and not removed after that. Texts with a suffix, and those that
are no versions, were never added. -/
def Remains (edits : List Edit) (stack text : String) : Prop :=
  (∃ r, Version.IsRelease text r) ∧
    ∃ before later, edits = before ++ .add stack text :: later ∧ .remove stack text ∉ later

theorem not_remains_nil (stack text : String) : ¬ Remains [] stack text := by
  rintro ⟨-, before, later, h, -⟩
  cases before with
  | nil => cases h
  | cons e before => cases h

/-- Only the last edit of a version counts. -/
theorem remains_concat_iff {r : Release} :
    Remains (edits ++ [e]) stack r.render ↔
      e = .add stack r.render ∨ e ≠ .remove stack r.render ∧ Remains edits stack r.render := by
  constructor
  · rintro ⟨hrelease, before, later, h, hkept⟩
    rcases List.eq_nil_or_concat later with rfl | ⟨later, last, rfl⟩
    · exact .inl (List.cons.inj (List.append_inj' h rfl).2).1
    · rw [List.concat_eq_append, ← List.cons_append, ← List.append_assoc] at h
      rw [List.concat_eq_append, List.mem_append, not_or] at hkept
      obtain ⟨rfl, hlast⟩ := List.append_inj' h rfl
      cases hlast
      refine .inr ⟨fun heq => hkept.2 (heq ▸ List.mem_cons_self), hrelease, before, later, rfl,
        hkept.1⟩
  · rintro (rfl | ⟨hne, hrelease, before, later, rfl, hkept⟩)
    · exact ⟨⟨r, Version.isRelease_render r⟩, edits, [], rfl, List.not_mem_nil⟩
    · refine ⟨hrelease, before, later ++ [e], by simp, fun hmem => ?_⟩
      rcases List.mem_append.1 hmem with hmem | hmem
      · exact hkept hmem
      · exact hne (List.mem_singleton.1 hmem).symm

theorem after_concat (edits : List Edit) (e : Edit) :
    after (edits ++ [e]) = (after edits).edit e := by
  rw [after, after, List.foldl_append]
  rfl

/-- **The tree tracks the releases that remain.** -/
theorem tracks_after (edits : List Edit) (stack : String) (r : Release) :
    (after edits).Tracks stack r ↔ Remains edits stack r.render := by
  induction edits using List.reverseRecOn with
  | nil => exact ⟨fun h => absurd h (not_tracks_empty stack r),
      fun h => absurd h (not_remains_nil stack r.render)⟩
  | append_singleton edits e ih => rw [after_concat, tracks_edit, ih, remains_concat_iff]

/-- **The listing of a stack is the versions that remain.** -/
theorem mem_versions_after_iff :
    text ∈ (after edits).versions stack ↔ Remains edits stack text := by
  rw [mem_versions_iff]
  constructor
  · rintro ⟨r, hr, rfl⟩
    exact (tracks_after edits stack r).1 hr
  · intro h
    obtain ⟨⟨r, hr⟩, -⟩ := id h
    cases Version.eq_render_of_isRelease hr
    exact ⟨r, (tracks_after edits stack r).2 h, rfl⟩

/-- A tree is the set of versions that a sequence of edits leaves, and answers the next call as such
a set. -/
structure Refines (t : VersionTree) (edits : List Edit) : Prop where
  /-- A call with a text that is no version is an error and changes nothing. -/
  rejects : ∀ (e : Edit) fault, Version.parse e.version = .error fault →
    e.call t = .error fault ∧ t.edit e = t
  /-- A call with a version succeeds. -/
  accepts : ∀ (e : Edit) v, Version.parse e.version = .ok v → e.call t = .ok (t.edit e)
  /-- A call with a version that has a suffix changes nothing. -/
  ignores : ∀ (e : Edit) v, Version.parse e.version = .ok v → v.hasSuffix = true → t.edit e = t
  /-- What is listed of a stack are the versions that remain, in their own spelling. -/
  listed : ∀ stack text, text ∈ t.versions stack ↔ Remains edits stack text
  /-- The versions of a stack are listed in ascending order. -/
  ascending : ∀ stack, (t.versions stack).Pairwise Ascends
  /-- No version is listed twice. -/
  once : ∀ stack, (t.versions stack).Nodup
  /-- The stacks of the tree are those of which a version remains. -/
  named : ∀ stack, stack ∈ t.stackNames ↔ ∃ text, Remains edits stack text
  /-- The names of the stacks are in ascending order, so none is there twice. -/
  namesAscend : t.stackNames.Pairwise fun name name' => compare name name' = .lt
  /-- No node of the tree is empty. -/
  pruned : t.Pruned

/-- **An edited tree is the set of versions that remain.** It lists exactly the texts that were
added and not removed after that, in the order of their releases, under the stacks that have any; a call
with anything else than a bare release leaves it alone; and the order of the edits is forgotten,
since two sequences lead to the same tree exactly if the same versions remain. -/
theorem refines_after (edits : List Edit) :
    (after edits).Refines edits ∧ ∀ edits', after edits = after edits' ↔
      ∀ stack text, Remains edits stack text ↔ Remains edits' stack text := by
  refine ⟨?_, fun edits' => ⟨fun heq stack text => ?_, fun h => ?_⟩⟩
  · exact {
      rejects := fun e fault hfault => by
        have hcall := e.call_of_error (after edits) hfault
        exact ⟨hcall, by rw [edit_eq_call, hcall]; rfl⟩
      accepts := fun e v hv => (e.call_of_ok (after edits) hv).1
      ignores := fun e v hv => (e.call_of_ok (after edits) hv).2
      listed := fun _ _ => mem_versions_after_iff
      ascending := fun stack => pairwise_versions _ stack
      once := fun stack => (pairwise_versions _ stack).imp Ascends.ne
      named := fun stack => by
        rw [(pruned_after edits).mem_stackNames_iff]
        constructor
        · rintro ⟨r, hr⟩
          exact ⟨r.render, (tracks_after edits stack r).1 hr⟩
        · rintro ⟨text, htext⟩
          obtain ⟨r, hr, -⟩ := mem_versions_iff.1 (mem_versions_after_iff.2 htext)
          exact ⟨r, hr⟩
      namesAscend := List.pairwise_map.2 (after edits).byStack.ascending
      pruned := pruned_after edits }
  · rw [← mem_versions_after_iff, heq, mem_versions_after_iff]
  · refine ext_tracks (pruned_after edits) (pruned_after edits') fun stack r => ?_
    rw [tracks_after, tracks_after, h]

/-! ### Membership -/

/-- A text is found in the tree if the release that it is read as is listed. -/
theorem contains_iff : t.contains stack text = true ↔
    ∃ v, Version.parse text = .ok v ∧ v.release.render ∈ t.versions stack := by
  have htracks (r : Release) : r.render ∈ t.versions stack ↔ t.Tracks stack r := by
    rw [mem_versions_iff]
    exact ⟨fun ⟨_, hs, heq⟩ => Release.render_injective heq ▸ hs, fun hr => ⟨r, hr, rfl⟩⟩
  rw [contains]
  cases hv : Version.parse text with
  | error fault => simp
  | ok v =>
    simp only [Except.ok.injEq, exists_eq_left', htracks, Tracks]
    cases t.byStack.get? stack with
    | none => simp
    | some releases => simp

/-- **Membership agrees with the listing of a stack exactly if the text has no suffix, or has one
and stands for a release that is not listed.** A text is found if it is a version, and its release is
listed. -/
theorem contains_iff_listed (t : VersionTree) (stack text : String) :
    (t.contains stack text = true ↔
      ∃ v, Version.parse text = .ok v ∧ v.release.render ∈ t.versions stack) ∧
    ((t.contains stack text = true ↔ text ∈ t.versions stack) ↔
      ∀ v, Version.parse text = .ok v → v.hasSuffix = true →
        v.release.render ∉ t.versions stack) := by
  refine ⟨contains_iff, fun hagree v hv hsuffix hlisted => ?_, fun hunlisted => ?_⟩
  · obtain ⟨r, -, hr⟩ := mem_versions_iff.1 (hagree.1 (contains_iff.2 ⟨v, hv, hlisted⟩))
    have hrelease := Version.isRelease_iff.2 hr.symm
    cases hv.symm.trans hrelease
    cases hsuffix
  · rw [contains_iff]
    constructor
    · rintro ⟨v, hv, hlisted⟩
      have hbare : v.hasSuffix = false :=
        Bool.eq_false_iff.2 fun hsuffix => hunlisted v hv hsuffix hlisted
      rw [hasSuffix_eq_false_iff.1 hbare] at hv
      rwa [Version.eq_render_of_isRelease hv]
    · intro hlisted
      obtain ⟨r, -, rfl⟩ := mem_versions_iff.1 hlisted
      exact ⟨_, Version.isRelease_render r, hlisted⟩

/-- A pre-release of a tracked release is found, but not listed. -/
theorem not_always_listed : ¬ ∀ edits stack text,
    (after edits).contains stack text = true ↔ text ∈ (after edits).versions stack := by
  intro h
  have hlisted := (h [.add "alpha" "1.2.3"] "alpha" "1.2.3-rc.1").1 (by decide +kernel)
  exact absurd hlisted (by decide +kernel)

end VersionTree

end Chainlets
