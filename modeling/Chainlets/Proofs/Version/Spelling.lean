import Chainlets.Proofs.Data.Except
import Chainlets.Version.Series

/-!
# A release has one spelling

The version tree keeps releases as numbers and forgets the texts they came from. Nothing is lost:
without a suffix, a text that stands for a release is the rendering of that release. Two versions of
a stack with different texts and no suffix are therefore different releases, and taking one of them
out of the tree cannot take the other one out with it.

## Main definitions

* `Version.IsRelease` — a text stands for a bare release.

## Main results

* `Decimal.digits_value` — a numeral without superfluous zeros is the digits of its value.
* `Version.eq_render_of_isRelease` — **a text that stands for a bare release is its rendering.**
* `Version.isRelease_render` — **the rendering of a release stands for it.**
-/

namespace Chainlets

/-! ### Numerals -/

namespace Decimal

theorem isDigit_of_mem_digits {n : Nat} {c : Char} (h : c ∈ digits n) : c.isDigit = true :=
  Nat.isDigit_of_mem_toDigits (by decide) (by decide) h

theorem digits_injective {n n' : Nat} (h : digits n = digits n') : n = n' := by
  have hvalue : value (digits n) = value (digits n') := by rw [h]
  simpa using hvalue

theorem digitChar_sub {c : Char} (h : c.isDigit = true) :
    Nat.digitChar (c.toNat - '0'.toNat) = c ∧ c.toNat - '0'.toNat < 10 := by
  have hall : ∀ n, n < 10 → Nat.digitChar n = Char.ofNat (48 + n) := by decide
  have hrange : 48 ≤ c.toNat ∧ c.toNat ≤ 57 := by
    rw [Char.isDigit, Bool.and_eq_true, decide_eq_true_eq, decide_eq_true_eq] at h
    exact ⟨UInt32.le_iff_toNat_le.1 h.1, UInt32.le_iff_toNat_le.1 h.2⟩
  have hlt : c.toNat - '0'.toNat < 10 := by
    change c.toNat - 48 < 10
    omega
  refine ⟨?_, hlt⟩
  rw [hall _ hlt]
  change Char.ofNat (48 + (c.toNat - 48)) = c
  rw [show 48 + (c.toNat - 48) = c.toNat by omega, Char.ofNat_toNat]

/-- Digits that are read after a positive number are the digits that it goes on with. -/
theorem toDigits_ofDigitChars {cs : List Char} (h : ∀ c ∈ cs, c.isDigit = true) :
    ∀ {n : Nat}, 0 < n → Nat.toDigits 10 (Nat.ofDigitChars 10 cs n) = Nat.toDigits 10 n ++ cs := by
  induction cs with
  | nil => simp
  | cons c cs ih =>
    intro n hn
    obtain ⟨hchar, hlt⟩ := digitChar_sub (h c List.mem_cons_self)
    rw [Nat.ofDigitChars_cons, ih (fun d hd => h d (List.mem_cons_of_mem _ hd)) (by omega),
      ← Nat.toDigits_append_toDigits (by decide) hn hlt, Nat.toDigits_of_lt_base hlt, hchar,
      List.append_assoc]
    rfl

/-- **A numeral without superfluous zeros is the digits of its value.** -/
theorem digits_value {cs : List Char} (h : ∀ c ∈ cs, c.isDigit = true) (hne : cs ≠ [])
    (hlead : ∀ d rest, cs ≠ '0' :: d :: rest) : digits (value cs) = cs := by
  cases cs with
  | nil => exact absurd rfl hne
  | cons c cs =>
    obtain ⟨hchar, hlt⟩ := digitChar_sub (h c List.mem_cons_self)
    rw [digits, value, Nat.ofDigitChars_cons, Nat.mul_zero, Nat.zero_add]
    by_cases hzero : c.toNat - '0'.toNat = 0
    · rw [hzero] at hchar ⊢
      cases cs with
      | nil => rw [← hchar]; rfl
      | cons d rest => exact absurd (by rw [← hchar]; rfl) (hlead d rest)
    · rw [toDigits_ofDigitChars (fun d hd => h d (List.mem_cons_of_mem _ hd))
        (Nat.pos_of_ne_zero hzero), Nat.toDigits_of_lt_base hlt, hchar]
      rfl

/-- The digits of a positive number do not begin with a zero. -/
theorem digits_of_pos {n : Nat} (h : 0 < n) : ∃ c rest, digits n = c :: rest ∧ c ≠ '0' := by
  induction n using Nat.strongRecOn with
  | ind n ih =>
    rcases Nat.lt_or_ge n 10 with hlt | hge
    · have hall : ∀ d, d < 10 → 0 < d → Nat.digitChar d ≠ '0' := by decide
      exact ⟨_, [], Nat.toDigits_of_lt_base hlt, hall n hlt h⟩
    · obtain ⟨c, rest, hdigits, hc⟩ := ih (n / 10) (by omega) (by omega)
      refine ⟨c, rest ++ [(n % 10).digitChar], ?_, hc⟩
      have hlast : digits n = digits (n / 10) ++ [(n % 10).digitChar] :=
        Nat.toDigits_of_base_le (by decide) hge
      rw [hlast, hdigits, List.cons_append]

/-- The digits of a number have no superfluous zeros. -/
theorem digits_ne_zero_cons (n : Nat) (d : Char) (rest : List Char) :
    digits n ≠ '0' :: d :: rest := by
  intro heq
  rcases Nat.eq_zero_or_pos n with rfl | hpos
  · have hlength : (digits 0).length = rest.length + 2 := by rw [heq]; rfl
    cases hlength
  · obtain ⟨c, more, hdigits, hc⟩ := digits_of_pos hpos
    rw [heq] at hdigits
    exact hc (List.cons.inj hdigits).1.symm

theorem digits_ne_nil (n : Nat) : digits n ≠ [] := by
  rcases Nat.eq_zero_or_pos n with rfl | hpos
  · decide
  · obtain ⟨c, rest, hdigits, -⟩ := digits_of_pos hpos
    simp [hdigits]

end Decimal

/-! ### Version texts -/

namespace Version

/-- A text stands for a release without a suffix. -/
def IsRelease (text : String) (r : Release) : Prop := Version.parse text = .ok ⟨r, "", ""⟩

theorem numberOf_ok {part : Part} {cs : List Char} {n : UInt64} (h : numberOf part cs = .ok n) :
    (∀ d rest, cs ≠ '0' :: d :: rest) ∧ Decimal.value cs = n.toNat := by
  rw [numberOf.eq_def] at h
  split at h
  next => cases h
  next hlead =>
    split at h
    next hn =>
      cases h
      exact ⟨fun d rest heq => hlead d rest heq, (Word.toNat_of_ofNat?_eq_some hn).symm⟩
    next => cases h

/-- A number that was read off the front of a text stands there as its digits. -/
theorem number_ok {part : Part} {cs rest : List Char} {n : UInt64}
    (h : number part cs = .ok (n, rest)) : cs = Decimal.digits n.toNat ++ rest := by
  rw [number.eq_def] at h
  split at h
  next => cases h
  next => cases h
  next hnil hcons =>
    cases hn : numberOf part (cs.takeWhile Char.isDigit) with
    | error fault => rw [hn] at h; cases h
    | ok n' =>
      rw [hn] at h
      cases h
      obtain ⟨hlead, hvalue⟩ := numberOf_ok hn
      have hall : ∀ c ∈ cs.takeWhile Char.isDigit, c.isDigit = true :=
        List.all_eq_true.1 List.all_takeWhile
      have hne : cs.takeWhile Char.isDigit ≠ [] := by
        intro htake
        cases hdrop : cs.dropWhile Char.isDigit with
        | nil => exact hnil htake hdrop
        | cons c l => exact hcons c l htake hdrop
      rw [← hvalue, Decimal.digits_value hall hne hlead, List.takeWhile_append_dropWhile]

theorem dot_ok {part : Part} {cs rest : List Char} (h : dot part cs = .ok rest) :
    cs = '.' :: rest := by
  rw [dot.eq_def] at h
  split at h
  next => cases h
  next c _ =>
    split at h
    next hc => rw [hc]; cases h; rfl
    next => cases h

theorem toList_render (r : Release) :
    r.render.toList = Decimal.digits r.major.toNat ++ '.' :: (Decimal.digits r.minor.toNat ++
      '.' :: Decimal.digits r.patch.toNat) := by
  have htext (n : UInt64) : (toString n).toList = Decimal.digits n.toNat := Nat.toList_repr
  have hdot : (toString ".").toList = ['.'] := rfl
  rw [Release.render]
  simp only [String.toList_append, htext, hdot]
  simp

/-- Three numbers that were read off the front of a text stand there with dots between them. -/
theorem numbers_ok {cs rest : List Char} {r : Release} (h : numbers cs = .ok (r, rest)) :
    cs = r.render.toList ++ rest := by
  rw [numbers] at h
  obtain ⟨⟨major, cs₁⟩, hmajor, h⟩ := Except.bind_eq_ok.1 h
  obtain ⟨cs₂, hdot, h⟩ := Except.bind_eq_ok.1 h
  obtain ⟨⟨minor, cs₃⟩, hminor, h⟩ := Except.bind_eq_ok.1 h
  obtain ⟨cs₄, hdot', h⟩ := Except.bind_eq_ok.1 h
  obtain ⟨⟨patch, cs₅⟩, hpatch, h⟩ := Except.bind_eq_ok.1 h
  cases h
  rw [number_ok hmajor, dot_ok hdot, number_ok hminor, dot_ok hdot', number_ok hpatch,
    toList_render]
  simp only [List.append_assoc, List.cons_append]

/-- An identifier that was read is not empty. -/
theorem identifier_ne_empty {part : Part} {cs rest : List Char} {word : String}
    (h : identifier part cs = .ok (word, rest)) : word ≠ "" := by
  rw [identifier.eq_def] at h
  cases hword : cs.takeWhile isIdentifierChar with
  | nil =>
    simp only [hword] at h
    cases h
  | cons c l =>
    simp only [hword] at h
    split at h
    next => cases h
    next =>
      cases h
      intro hempty
      have hlist := congrArg String.toList hempty
      rw [String.toList_ofList] at hlist
      cases hlist

/-- What follows a mark was read as an identifier, and where none follows nothing was read. -/
theorem suffix_ok {mark : Char} {part : Part} {cs rest : List Char} {word? : Option String}
    (h : suffix mark part cs = .ok (word?, rest)) (hword : word?.getD "" = "") :
    word? = none ∧ rest = cs := by
  rw [suffix.eq_def] at h
  split at h
  next => cases h; exact ⟨rfl, rfl⟩
  next c l =>
    split at h
    next =>
      obtain ⟨⟨word, rest'⟩, hid, heq⟩ := Except.map_eq_ok.1 h
      cases heq
      exact absurd hword (identifier_ne_empty hid)
    next => cases h; exact ⟨rfl, rfl⟩

/-- **A text that stands for a bare release is its rendering.** -/
theorem eq_render_of_isRelease {text : String} {r : Release} (h : IsRelease text r) :
    text = r.render := by
  rw [IsRelease, Version.parse, Except.mapError_eq_ok, ofChars] at h
  split at h
  next => cases h
  next =>
    obtain ⟨⟨r', cs₁⟩, hnumbers, h⟩ := Except.bind_eq_ok.1 h
    obtain ⟨⟨pre, cs₂⟩, hpre, h⟩ := Except.bind_eq_ok.1 h
    obtain ⟨⟨build, cs₃⟩, hbuild, h⟩ := Except.bind_eq_ok.1 h
    cases cs₃ with
    | cons c rest => cases h
    | nil =>
      obtain ⟨hrelease, hpre', hbuild'⟩ : r' = r ∧ pre.getD "" = "" ∧ build.getD "" = "" := by
        have heq := Except.ok.inj h
        rw [Version.mk.injEq] at heq
        exact heq
      obtain ⟨-, rfl⟩ := suffix_ok hpre hpre'
      obtain ⟨-, rfl⟩ := suffix_ok hbuild hbuild'
      have hlist := numbers_ok hnumbers
      rw [List.append_nil, hrelease] at hlist
      exact String.toList_inj.1 hlist

/-! ### Renderings -/

@[simp]
theorem numberOf_digits (part : Part) (n : UInt64) :
    numberOf part (Decimal.digits n.toNat) = .ok n := by
  rw [numberOf.eq_def]
  split
  next d rest heq => exact absurd heq (Decimal.digits_ne_zero_cons _ d rest)
  next => simp

/-- The digits of a number are read, up to something that is no digit. -/
theorem number_digits (part : Part) (n : UInt64) {rest : List Char}
    (hrest : rest.takeWhile Char.isDigit = []) :
    number part (Decimal.digits n.toNat ++ rest) = .ok (n, rest) := by
  have hall : ∀ c ∈ Decimal.digits n.toNat, c.isDigit = true :=
    fun _ => Decimal.isDigit_of_mem_digits
  have htake : (Decimal.digits n.toNat ++ rest).takeWhile Char.isDigit =
      Decimal.digits n.toNat := by
    rw [List.takeWhile_append_of_pos hall, hrest, List.append_nil]
  have hdrop : (Decimal.digits n.toNat ++ rest).dropWhile Char.isDigit = rest := by
    rw [List.dropWhile_append_of_pos hall]
    have hsplit := List.takeWhile_append_dropWhile (p := Char.isDigit) (l := rest)
    rwa [hrest, List.nil_append] at hsplit
  rw [number.eq_def, htake, hdrop]
  split
  next hnil => exact absurd hnil (Decimal.digits_ne_nil _)
  next hnil => exact absurd hnil (Decimal.digits_ne_nil _)
  next => rw [numberOf_digits]; rfl

theorem numbers_render (r : Release) : numbers r.render.toList = .ok (r, []) := by
  have hpatch := @number_digits .patch r.patch [] rfl
  rw [List.append_nil] at hpatch
  rw [toList_render, numbers, number_digits .major r.major (by simp)]
  change (number .minor _ >>= _) = _
  rw [number_digits .minor r.minor (by simp)]
  change (number .patch _ >>= _) = _
  rw [hpatch]
  rfl

/-- **The rendering of a release stands for it.** -/
theorem isRelease_render (r : Release) : IsRelease r.render r := by
  have hne : r.render.toList.isEmpty = false := by
    rw [toList_render]
    simp
  have hchars : ofChars r.render.toList = .ok ⟨r, "", ""⟩ := by
    rw [ofChars, hne, numbers_render]
    rfl
  rw [IsRelease, Version.parse, hchars]
  rfl

/-- **Two texts of one bare release are the same text.** -/
theorem IsRelease.text_unique {s t : String} {r : Release} (hs : IsRelease s r)
    (ht : IsRelease t r) : s = t := by
  rw [eq_render_of_isRelease hs, eq_render_of_isRelease ht]

end Version

end Chainlets
