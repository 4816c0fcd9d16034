import Chainlets.Proofs.Version.Series
import Mathlib.Logic.Relation

/-!
# Compatible versions

A text that is a version belongs to exactly one series, and the series of two texts decide what a
move between them takes and what its plan is called. So texts of one series can stand for each
other, and plans tell apart all that moves do. Breaking moves climb in the order of series, so no
number of them leads back, and nothing wraps at the greatest word: after the greatest major number
there is nothing, and after the greatest minor number of major zero there is the major number one.

## Main definitions

* `VersionText` — a text that is a version, with `VersionText.series`.
* `VersionText.Compatible`, `VersionText.Breaks`, `VersionText.Refuses` — what a move between two
  such texts comes to.

## Main results

* `Upgrade.kind_text`, `Upgrade.planName_text` — moves by the series of the two texts.
* `Upgrade.compatible_classes` — **compatibility is an equivalence that plan names encode.**
-/

namespace Chainlets

/-- A text that is a version. -/
structure VersionText where
  /-- The text itself. -/
  text : String
  /-- The version that it stands for. -/
  version : Version
  parses : Version.parse text = .ok version

namespace VersionText

/-- The series of a version text. -/
def series (a : VersionText) : Series := a.version.series

/-- A move from one text to another stays in its series. -/
def Compatible (a b : VersionText) : Prop := Upgrade.kind a.text b.text = .ok .compatible

/-- A move from one text to another goes to the next series. -/
def Breaks (a b : VersionText) : Prop := Upgrade.kind a.text b.text = .ok .breaking

/-- A move from one text to another is refused. -/
def Refuses (a b : VersionText) : Prop :=
  Upgrade.kind a.text b.text = .error (.unsupportedUpgrade a.text b.text)

end VersionText

/-! ### Moves by series -/

namespace Upgrade

/-- What a move takes is decided by the series of the two texts. -/
theorem kind_text (a b : VersionText) : kind a.text b.text =
    if b.series = a.series then .ok .compatible
    else if b.series.Follows a.series then .ok .breaking
    else .error (.unsupportedUpgrade a.text b.text) := by
  rw [kind, a.parses, b.parses]
  rfl

/-- So is what its plan is called. -/
theorem planName_text (a b : VersionText) :
    planName a.text b.text = .ok (a.series.plan b.series) := by
  rw [planName, a.parses, b.parses]
  rfl

end Upgrade

namespace VersionText

variable {a b c d : VersionText}

theorem compatible_iff : a.Compatible b ↔ a.series = b.series := by
  rw [Compatible, Upgrade.kind_text]
  constructor
  · intro h
    split at h
    next hsame => exact hsame.symm
    next => split at h <;> cases h
  · exact fun hsame => if_pos hsame.symm

theorem breaks_iff : a.Breaks b ↔ b.series.Follows a.series := by
  rw [Breaks, Upgrade.kind_text]
  constructor
  · intro h
    split at h
    next => cases h
    next =>
      split at h
      next hfollows => exact hfollows
      next => cases h
  · exact fun hfollows => (if_neg hfollows.ne).trans (if_pos hfollows)

theorem refuses_iff : a.Refuses b ↔ b.series ≠ a.series ∧ ¬ b.series.Follows a.series := by
  rw [Refuses, Upgrade.kind_text]
  constructor
  · intro h
    split at h
    next => cases h
    next hother =>
      split at h
      next => cases h
      next hnext => exact ⟨hother, hnext⟩
  · exact fun ⟨hother, hnext⟩ => (if_neg hother).trans (if_neg hnext)

/-- Compatible texts have the same series, so compatibility is an equivalence. -/
theorem compatible_equivalence : Equivalence Compatible where
  refl _ := compatible_iff.2 rfl
  symm h := compatible_iff.2 (compatible_iff.1 h).symm
  trans h h' := compatible_iff.2 ((compatible_iff.1 h).trans (compatible_iff.1 h'))

/-! ### Climbing -/

/-- Any number of breaking moves climbs. -/
theorem rank_lt_of_transGen (h : Relation.TransGen Breaks a b) :
    a.series.rank < b.series.rank := by
  induction h with
  | single hbreaks => exact (breaks_iff.1 hbreaks).rank_lt
  | tail _ hbreaks ih => exact Nat.lt_trans ih (breaks_iff.1 hbreaks).rank_lt

/-- A move back from where a breaking move led is refused: what is below is neither the same series
nor the next one. -/
theorem Breaks.refuses (h : a.Breaks b) : b.Refuses a := by
  have hrank := (breaks_iff.1 h).rank_lt
  refine refuses_iff.2 ⟨fun hsame => ?_, fun hback => ?_⟩
  · rw [hsame] at hrank
    exact Nat.lt_irrefl _ hrank
  · exact Nat.lt_asymm hrank hback.rank_lt

end VersionText

/-! ### The greatest numbers -/

namespace Series

/-- Nothing comes after the greatest major number. -/
theorem not_follows_major {n : UInt64} (hn : n.toNat = Word.maxNat) (t : Series) :
    ¬ t.Follows (.major n) := by
  intro h
  cases t with
  | zero => exact h
  | major m =>
    have hsucc : n.toNat + 1 = m.toNat := h
    have hm := Word.toNat_le_maxNat m
    omega

/-- After the greatest minor number of major zero there is the major number one only. -/
theorem follows_zero_iff {n : UInt64} (hn : n.toNat = Word.maxNat) (t : Series) :
    t.Follows (.zero n) ↔ t = .major 1 := by
  cases t with
  | zero m =>
    have hm := Word.toNat_le_maxNat m
    refine iff_of_false (fun h => ?_) nofun
    have hsucc : n.toNat + 1 = m.toNat := h
    omega
  | major m => simp [Follows]

theorem ofRelease_eq_major_iff {r : Release} {n : UInt64} (hn : n ≠ 0) :
    ofRelease r = .major n ↔ r.major = n := by
  rw [ofRelease]
  split
  next hzero => exact iff_of_false nofun fun h => hn (h.symm.trans hzero)
  next => exact ⟨major.inj, congrArg major⟩

end Series

namespace Upgrade

open VersionText

/-- **Compatibility is an equivalence, and plan names encode its classes.** What a move takes, and
what its plan is called, depends on the classes of the two texts; the texts are only named in a
refusal. Breaking moves climb in the order of series, so a move back is refused, and no number of
them leads back to a compatible version. There is no series after the greatest major number, and
from the greatest minor number of major zero only the major number one can be reached. -/
theorem compatible_classes :
    Equivalence Compatible ∧
    (∀ a a' b b' : VersionText, a.Compatible a' → b.Compatible b' →
      (∀ taken, kind a.text b.text = .ok taken ↔ kind a'.text b'.text = .ok taken) ∧
      (a.Refuses b ↔ a'.Refuses b') ∧ planName a.text b.text = planName a'.text b'.text) ∧
    (∀ a b : VersionText, a.Breaks b → b.Refuses a ∧ a.series.compare b.series = .lt) ∧
    (∀ a b : VersionText, Relation.TransGen Breaks a b → ¬ a.Compatible b ∧ ¬ b.Compatible a) ∧
    (∀ a b : VersionText, ∃ plan, planName a.text b.text = .ok plan ∧
      ∀ c d : VersionText, planName c.text d.text = .ok plan ↔ a.Compatible c ∧ b.Compatible d) ∧
    (∀ a b : VersionText, a.version.release.major.toNat = Word.maxNat → ¬ a.Breaks b) ∧
    ∀ a b : VersionText, a.version.release.major = 0 →
      a.version.release.minor.toNat = Word.maxNat → (a.Breaks b ↔ b.version.release.major = 1) := by
  refine ⟨compatible_equivalence, fun a a' b b' ha hb => ?_, fun a b h => ?_, fun a b h => ?_,
    fun a b => ⟨_, planName_text a b, fun c d => ?_⟩, fun a b hmax => ?_, fun a b hzero hmax => ?_⟩
  · have ha := compatible_iff.1 ha
    have hb := compatible_iff.1 hb
    refine ⟨fun taken => ?_, ?_, ?_⟩
    · cases taken with
      | compatible => exact compatible_iff.trans (by rw [ha, hb]; exact compatible_iff.symm)
      | breaking => exact breaks_iff.trans (by rw [ha, hb]; exact breaks_iff.symm)
    · rw [refuses_iff, refuses_iff, ha, hb]
    · rw [planName_text, planName_text, ha, hb]
  · exact ⟨h.refuses, Series.compare_eq_lt_iff.2 (breaks_iff.1 h).rank_lt⟩
  · have hrank := rank_lt_of_transGen h
    have hother : a.series ≠ b.series := fun hsame => by
      rw [hsame] at hrank
      exact Nat.lt_irrefl _ hrank
    exact ⟨fun hback => hother (compatible_iff.1 hback),
      fun hback => hother (compatible_iff.1 hback).symm⟩
  · rw [planName_text, compatible_iff, compatible_iff]
    constructor
    · intro h
      obtain ⟨hold, hnew⟩ := Series.plan_injective (Except.ok.inj h)
      exact ⟨hold.symm, hnew.symm⟩
    · rintro ⟨hold, hnew⟩
      rw [hold, hnew]
  · have hmajor : a.series = .major a.version.release.major := by
      refine if_neg fun hzero => ?_
      rw [hzero] at hmax
      exact absurd hmax (by decide)
    rw [breaks_iff, hmajor]
    exact Series.not_follows_major hmax _
  · have hminor : a.series = .zero a.version.release.minor := if_pos hzero
    rw [breaks_iff, hminor, Series.follows_zero_iff hmax]
    exact Series.ofRelease_eq_major_iff (by decide)

end Upgrade

end Chainlets
