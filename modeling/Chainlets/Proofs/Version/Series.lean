import Chainlets.Proofs.Version.Spelling
import Mathlib.Data.List.Basic

/-!
# The series of version texts

What a move between two version texts takes, and what its plan is called, depends on the series of
the two texts alone. Series are in an order, in which the next series is the least one above; so a
chainlet that only makes compatible and breaking moves never goes back to a series that it left.
And the plan name of a move tells both series apart from all others. A plan that was carried out
once is therefore never the plan of a later move.

## Main definitions

* `Series.Has` — a version text belongs to a series.
* `Series.rank` — the place of a series in the order.
* `Series.plan` — the plan name of a move from one series to another.

## Main results

* `Series.Follows.rank_lt` — the next series is above.
* `Upgrade.kind_eq_compatible_iff`, `Upgrade.kind_eq_breaking_iff`, `Upgrade.planName_eq_ok_iff`.
* `Series.plan_injective` — **a plan name tells the two series.**
-/

namespace Chainlets

namespace Series

variable {s s' t t' : Series} {text : String}

/-! ### The series of a text -/

/-- A version text belongs to a series. -/
def Has (s : Series) (text : String) : Prop := ∃ v, Version.parse text = .ok v ∧ v.series = s

/-- A text belongs to at most one series. -/
theorem Has.unique (h : s.Has text) (h' : t.Has text) : s = t := by
  obtain ⟨v, hv, rfl⟩ := h
  obtain ⟨w, hw, rfl⟩ := h'
  have heq : v = w := Except.ok.inj (hv.symm.trans hw)
  rw [heq]

/-! ### The order -/

/-- The place of a series in the order. All series of major zero come before the others. -/
def rank : Series → Nat
  | .zero minor => minor.toNat
  | .major n => Word.maxNat + 1 + n.toNat

/-- Series are in the order of their places. -/
theorem compare_eq (s t : Series) : s.compare t = Ord.compare s.rank t.rank := by
  have hwords (m n : UInt64) : Ord.compare m n = Ord.compare m.toNat n.toNat := by
    cases h : Ord.compare m n with
    | lt => exact (Std.compare_eq_lt.2 (UInt64.lt_iff_toNat_lt.1 (Std.compare_eq_lt.1 h))).symm
    | eq => rw [Std.LawfulEqCmp.compare_eq_iff_eq.1 h, Std.ReflOrd.compare_self]
    | gt => exact (Std.compare_eq_gt.2 (UInt64.lt_iff_toNat_lt.1 (Std.compare_eq_gt.1 h))).symm
  cases s with
  | zero m =>
    have hm := Word.toNat_le_maxNat m
    cases t with
    | zero n => exact hwords m n
    | major n => exact (Std.compare_eq_lt.2 (by simp only [rank]; omega)).symm
  | major m =>
    cases t with
    | zero n =>
      have hn := Word.toNat_le_maxNat n
      exact (Std.compare_eq_gt.2 (by simp only [rank]; omega)).symm
    | major n =>
      refine (hwords m n).trans ?_
      simp only [rank, Nat.compare_eq_ite_lt]
      grind

/-- A series is below another in the order when its place is. -/
theorem compare_eq_lt_iff : s.compare t = .lt ↔ s.rank < t.rank := by
  rw [compare_eq, Std.compare_eq_lt]

/-- A series is above another in the order when its place is. -/
theorem compare_eq_gt_iff : s.compare t = .gt ↔ t.rank < s.rank := by
  rw [compare_eq, Std.compare_eq_gt]

/-- **The next series is above.** -/
theorem Follows.rank_lt (h : t.Follows s) : s.rank < t.rank := by
  cases s with
  | zero m =>
    have hm := Word.toNat_le_maxNat m
    cases t with
    | zero n => exact Nat.lt_of_succ_le (Nat.le_of_eq h)
    | major n => simp only [rank]; omega
  | major m =>
    cases t with
    | zero n => exact h.elim
    | major n =>
      have hsucc : m.toNat + 1 = n.toNat := h
      simp only [rank]
      omega

theorem Follows.ne (h : t.Follows s) : t ≠ s := by
  rintro rfl
  exact Nat.lt_irrefl _ h.rank_lt

/-! ### Plan names -/

/-- The plan name of a move from one series to another. -/
def plan (s t : Series) : String := s!"{s.render}-to-{t.render}"

theorem toList_word (n : UInt64) : (toString n).toList = Decimal.digits n.toNat := Nat.toList_repr

@[simp]
theorem toList_render_zero (minor : UInt64) :
    (zero minor).render.toList = '0' :: '.' :: Decimal.digits minor.toNat := by
  have hzero : (toString "0.").toList = ['0', '.'] := rfl
  simp [render, toList_word, hzero]

@[simp]
theorem toList_render_major (n : UInt64) : (major n).render.toList = Decimal.digits n.toNat := by
  simp [render, toList_word]

/-- The text of a series has nothing but digits and dots. -/
theorem isDigit_or_dot_of_mem_render {c : Char} (h : c ∈ s.render.toList) :
    c.isDigit = true ∨ c = '.' := by
  cases s with
  | zero minor =>
    rw [toList_render_zero] at h
    rcases List.mem_cons.1 h with rfl | h
    · exact .inl rfl
    · rcases List.mem_cons.1 h with rfl | h
      · exact .inr rfl
      · exact .inl (Decimal.isDigit_of_mem_digits h)
  | major n =>
    rw [toList_render_major] at h
    exact .inl (Decimal.isDigit_of_mem_digits h)

/-- Series have different texts: a dot is in that of a series of major zero, and in no other. -/
theorem render_injective (h : s.render = t.render) : s = t := by
  have hdot (n : Nat) : '.' ∉ Decimal.digits n := fun hmem =>
    absurd (Decimal.isDigit_of_mem_digits hmem) (by decide)
  have hlist : s.render.toList = t.render.toList := by rw [h]
  cases s with
  | zero m =>
    cases t with
    | zero n =>
      have hdigits : Decimal.digits m.toNat = Decimal.digits n.toNat := by simpa using hlist
      rw [UInt64.toNat_inj.1 (Decimal.digits_injective hdigits)]
    | major n =>
      rw [toList_render_zero, toList_render_major] at hlist
      have hmem : '.' ∈ Decimal.digits n.toNat := by simp [← hlist]
      exact absurd hmem (hdot _)
  | major m =>
    cases t with
    | zero n =>
      rw [toList_render_zero, toList_render_major] at hlist
      have hmem : '.' ∈ Decimal.digits m.toNat := by simp [hlist]
      exact absurd hmem (hdot _)
    | major n =>
      have hdigits : Decimal.digits m.toNat = Decimal.digits n.toNat := by simpa using hlist
      rw [UInt64.toNat_inj.1 (Decimal.digits_injective hdigits)]

theorem toList_plan (s t : Series) : (plan s t).toList =
    (s.render.toList ++ ['-']) ++ 't' :: ('o' :: '-' :: t.render.toList) := by
  have htext (u : String) : toString u = u := rfl
  simp [plan, htext]

/-- **A plan name tells the two series.** The letter in its middle is in no text of a series. -/
theorem plan_injective (h : plan s t = plan s' t') : s = s' ∧ t = t' := by
  have hletter (u : Series) : 't' ∉ u.render.toList := fun hmem => by
    rcases isDigit_or_dot_of_mem_render hmem with hdigit | hdot
    · exact absurd hdigit (by decide)
    · exact absurd hdot (by decide)
  have hlist : (plan s t).toList = (plan s' t').toList := by rw [h]
  rw [toList_plan, toList_plan] at hlist
  obtain ⟨hold, -, hnew⟩ :=
    (List.append_cons_inj_of_notMem (by simp [hletter]) (by simp [hletter])).1 hlist
  have hold : s.render.toList = s'.render.toList := by simpa using hold
  have hnew : t.render.toList = t'.render.toList := by simpa using hnew
  exact ⟨render_injective (String.toList_inj.1 hold), render_injective (String.toList_inj.1 hnew)⟩

theorem plan_ne_empty (s t : Series) : plan s t ≠ "" := fun h => by
  have hlist : (plan s t).toList = [] := by rw [h]; rfl
  rw [toList_plan] at hlist
  simp at hlist

end Series

/-! ### Moves between version texts -/

namespace Upgrade

variable {old new name : String}

theorem kind_eq_compatible_iff :
    kind old new = .ok .compatible ↔ ∃ s : Series, s.Has old ∧ s.Has new := by
  constructor
  · intro h
    obtain ⟨v, hv, h⟩ := Except.bind_eq_ok.1 h
    obtain ⟨w, hw, h⟩ := Except.bind_eq_ok.1 h
    dsimp only at h
    split at h
    next heq => exact ⟨v.series, ⟨v, hv, rfl⟩, ⟨w, hw, heq⟩⟩
    next =>
      split at h
      · cases h
      · cases h
  · rintro ⟨_, ⟨v, hv, rfl⟩, ⟨w, hw, heq⟩⟩
    rw [kind, hv, hw]
    exact if_pos heq

theorem kind_eq_breaking_iff :
    kind old new = .ok .breaking ↔ ∃ s t : Series, s.Has old ∧ t.Has new ∧ t.Follows s := by
  constructor
  · intro h
    obtain ⟨v, hv, h⟩ := Except.bind_eq_ok.1 h
    obtain ⟨w, hw, h⟩ := Except.bind_eq_ok.1 h
    dsimp only at h
    split at h
    next => cases h
    next =>
      split at h
      next hfollows => exact ⟨v.series, w.series, ⟨v, hv, rfl⟩, ⟨w, hw, rfl⟩, hfollows⟩
      next => cases h
  · rintro ⟨_, _, ⟨v, hv, rfl⟩, ⟨w, hw, rfl⟩, hfollows⟩
    rw [kind, hv, hw]
    exact (if_neg hfollows.ne).trans (if_pos hfollows)

theorem planName_eq_ok_iff :
    planName old new = .ok name ↔ ∃ s t : Series, s.Has old ∧ t.Has new ∧ s.plan t = name := by
  constructor
  · intro h
    obtain ⟨v, hv, h⟩ := Except.bind_eq_ok.1 h
    obtain ⟨w, hw, h⟩ := Except.bind_eq_ok.1 h
    exact ⟨v.series, w.series, ⟨v, hv, rfl⟩, ⟨w, hw, rfl⟩, Except.ok.inj h⟩
  · rintro ⟨_, _, ⟨v, hv, rfl⟩, ⟨w, hw, rfl⟩, rfl⟩
    rw [planName, hv, hw]
    rfl

end Upgrade

end Chainlets
