import Chainlets.ChainId
import Chainlets.Proofs.Version.Spelling

/-!
# The grammars of chain ids

A recogniser goes through a text once: it looks at the first character, counts and classifies the
others, and cuts a self-service chain id at its first underscore and at the first hyphen after that.
The formats are stated here without any of that, as what a chain id is made of.

Cutting at the *first* mark is right because no mark stands in a name or in a numeral. So there is
only one place to cut at, a text with superfluous marks has a part that is no name or no numeral,
and what a self-service chain id is made of can be read off it again.

## Main definitions

* `ChainId.General` — the general format.
* `ChainId.Parts` — a name and two positive numbers, with `ChainId.Parts.text`, the self-service
  chain id that is made of them.

## Main results

* `ChainId.isValid_iff` — a text is accepted if it is in the general format.
* `ChainId.isPositive_iff` — a numeral is accepted if a positive word is printed like that.
* `ChainId.grammars` — **each recogniser accepts its format**, and the parts of a self-service
  chain id are unique.
-/

namespace Chainlets.ChainId

/-! ### Characters -/

/-- A lowercase letter. -/
def IsLower (c : Char) : Prop := 'a' ≤ c ∧ c ≤ 'z'

/-- A letter. -/
def IsLetter (c : Char) : Prop := IsLower c ∨ 'A' ≤ c ∧ c ≤ 'Z'

/-- A digit. -/
def IsDigit (c : Char) : Prop := '0' ≤ c ∧ c ≤ '9'

theorem isBetween_iff (first last c : Char) :
    (decide (first.val ≤ c.val) && decide (c.val ≤ last.val)) = true ↔ first ≤ c ∧ c ≤ last := by
  rw [Bool.and_eq_true, decide_eq_true_eq, decide_eq_true_eq]
  rfl

theorem isLower_iff {c : Char} : c.isLower = true ↔ IsLower c := isBetween_iff 'a' 'z' c

theorem isDigit_iff {c : Char} : c.isDigit = true ↔ IsDigit c := isBetween_iff '0' '9' c

theorem isAlpha_iff {c : Char} : c.isAlpha = true ↔ IsLetter c := by
  have hupper : c.isUpper = true ↔ 'A' ≤ c ∧ c ≤ 'Z' := decide_eq_true_iff
  show (c.isUpper || c.isLower) = true ↔ IsLetter c
  rw [Bool.or_eq_true, hupper, isLower_iff, IsLetter, or_comm]

theorem isIdChar_iff {c : Char} :
    isIdChar c = true ↔ IsLetter c ∨ IsDigit c ∨ c = '_' ∨ c = '-' ∨ c = '.' := by
  simp [isIdChar, Char.isAlphanum, isAlpha_iff, isDigit_iff, or_assoc]

/-- A text begins with a character of a kind. -/
def BeginsWith (p : Char → Prop) (cs : List Char) : Prop := ∃ c rest, cs = c :: rest ∧ p c

/-! ### The general format -/

/-- The general format of chain ids. -/
structure General (id : String) : Prop where
  length : 1 ≤ id.length ∧ id.length ≤ 48
  chars : ∀ c ∈ id.toList, IsLetter c ∨ IsDigit c ∨ c = '_' ∨ c = '-' ∨ c = '.'
  begins : BeginsWith IsLetter id.toList

/-- A text is accepted if it is in the general format. -/
theorem isValid_iff {id : String} : isValid id = true ↔ General id := by
  rw [isValid]
  constructor
  · intro h
    split at h
    next => cases h
    next first rest hid =>
      simp only [Bool.and_eq_true, decide_eq_true_eq, List.all_eq_true] at h
      obtain ⟨⟨hfirst, hlength⟩, hrest⟩ := h
      have hcount : id.length = rest.length + 1 := by rw [← String.length_toList, hid]; rfl
      rw [maxLength] at hlength
      refine ⟨by omega, fun c hc => ?_, first, rest, hid, isAlpha_iff.1 hfirst⟩
      rw [hid] at hc
      rcases List.mem_cons.1 hc with rfl | hc
      · exact .inl (isAlpha_iff.1 hfirst)
      · exact isIdChar_iff.1 (hrest c hc)
  · rintro ⟨⟨-, hlength⟩, hchars, first, rest, hid, hfirst⟩
    have hcount : id.length = rest.length + 1 := by rw [← String.length_toList, hid]; rfl
    rw [hid] at hchars ⊢
    have hshort : rest.length < maxLength := by rw [maxLength]; omega
    simp only [Bool.and_eq_true, decide_eq_true_eq, List.all_eq_true]
    exact ⟨⟨isAlpha_iff.2 hfirst, hshort⟩,
      fun c hc => isIdChar_iff.2 (hchars c (List.mem_cons_of_mem _ hc))⟩

/-! ### Cutting -/

/-- A text is cut at a mark that does not stand before it. -/
theorem splitAtFirst_eq_some_iff {mark : Char} {cs before after : List Char} :
    splitAtFirst mark cs = some (before, after) ↔
      cs = before ++ mark :: after ∧ mark ∉ before := by
  induction cs generalizing before after with
  | nil => simp [splitAtFirst]
  | cons c cs ih =>
    rw [splitAtFirst]
    split
    next hc =>
      cases before with
      | nil => simp [hc]
      | cons d before => simp +contextual [hc]
    next hc =>
      cases before with
      | nil => simp [hc]
      | cons d before =>
        simp only [Option.map_eq_some_iff, Prod.exists, ih, Prod.mk.injEq, List.cons_append,
          List.cons.injEq, List.mem_cons, not_or]
        constructor
        · rintro ⟨_, _, ⟨hcs, hbefore⟩, ⟨hd, rfl⟩, rfl⟩
          exact ⟨⟨hd, hcs⟩, fun hmark => hc (hd.trans hmark.symm), hbefore⟩
        · rintro ⟨⟨hd, hcs⟩, -, hbefore⟩
          exact ⟨before, after, ⟨hcs, hbefore⟩, ⟨hd, rfl⟩, rfl⟩

/-! ### Names and numbers -/

/-- A text is accepted as a name if it is 1 to 32 lowercase letters and digits, of which the first
is a letter. -/
theorem isName_iff {cs : List Char} : isName cs = true ↔
    (1 ≤ cs.length ∧ cs.length ≤ 32) ∧ (∀ c ∈ cs, IsLower c ∨ IsDigit c) ∧
      BeginsWith IsLower cs := by
  cases cs with
  | nil => simp [isName]
  | cons first rest =>
    have hbegins : BeginsWith IsLower (first :: rest) ↔ IsLower first := by simp [BeginsWith]
    have hshort : rest.length < maxNameLength ↔ (first :: rest).length ≤ 32 := by
      rw [maxNameLength, List.length_cons]
      omega
    simp only [isName, Bool.and_eq_true, Bool.or_eq_true, decide_eq_true_eq, List.all_eq_true,
      isLower_iff, isDigit_iff, hbegins, hshort, List.mem_cons]
    constructor
    · rintro ⟨⟨hfirst, hlength⟩, hrest⟩
      refine ⟨⟨by simp, hlength⟩, ?_, hfirst⟩
      rintro c (rfl | hc)
      · exact .inl hfirst
      · exact hrest c hc
    · rintro ⟨⟨-, hlength⟩, hchars, hfirst⟩
      exact ⟨⟨hfirst, hlength⟩, fun c hc => hchars c (.inr hc)⟩

/-- A numeral is accepted if a positive word is printed like that. -/
theorem isPositive_iff {cs : List Char} :
    isPositive cs = true ↔ ∃ n, (1 ≤ n ∧ n ≤ Word.maxNat) ∧ Decimal.digits n = cs := by
  constructor
  · intro h
    simp only [isPositive, Decimal.isNumeral, Bool.and_eq_true, decide_eq_true_eq,
      List.all_eq_true, Bool.not_eq_true', List.isEmpty_eq_false_iff, bne_iff_ne] at h
    obtain ⟨⟨⟨hne, hdigits⟩, hhead⟩, hword⟩ := h
    have hprinted : Decimal.digits (Decimal.value cs) = cs :=
      Decimal.digits_value hdigits hne fun d rest hzero => hhead (by rw [hzero]; rfl)
    rcases Nat.eq_zero_or_pos (Decimal.value cs) with hzero | hpos
    · rw [hzero] at hprinted
      exact absurd (by rw [← hprinted]; rfl) hhead
    · exact ⟨Decimal.value cs, ⟨hpos, hword⟩, hprinted⟩
  · rintro ⟨n, ⟨hpos, hword⟩, rfl⟩
    obtain ⟨c, rest, hdigits, hc⟩ := Decimal.digits_of_pos hpos
    have hall : (Decimal.digits n).all Char.isDigit = true :=
      List.all_eq_true.2 fun c hc => Decimal.isDigit_of_mem_digits hc
    have hvalue : Decimal.value (Decimal.digits n) ≤ Word.maxNat := by
      rw [Decimal.value_digits]
      exact hword
    rw [isPositive, Decimal.isNumeral, hall, decide_eq_true hvalue, hdigits]
    simp [hc]

/-! ### The self-service format -/

/-- What a self-service chain id is made of. -/
@[ext]
structure Parts where
  /-- The name. -/
  name : String
  /-- The number after the underscore. -/
  number : Nat
  /-- The number after the hyphen. -/
  revision : Nat
  name_length : 1 ≤ name.length ∧ name.length ≤ 32
  name_chars : ∀ c ∈ name.toList, IsLower c ∨ IsDigit c
  name_begins : BeginsWith IsLower name.toList
  number_range : 1 ≤ number ∧ number ≤ Word.maxNat
  revision_range : 1 ≤ revision ∧ revision ≤ Word.maxNat

namespace Parts

/-- The self-service chain id that is made of its parts. -/
def text (parts : Parts) : String := s!"{parts.name}_{parts.number}-{parts.revision}"

variable (parts : Parts)

/-- What follows the underscore of a self-service chain id. -/
def numbers : List Char :=
  Decimal.digits parts.number ++ '-' :: Decimal.digits parts.revision

theorem toList_text : parts.text.toList = parts.name.toList ++ '_' :: parts.numbers := by
  have htext (n : Nat) : (toString n).toList = Decimal.digits n := Nat.toList_repr
  have hname : toString parts.name = parts.name := rfl
  have hunderscore : (toString "_").toList = ['_'] := rfl
  have hhyphen : (toString "-").toList = ['-'] := rfl
  rw [text, numbers]
  simp only [String.toList_append, htext, hname, hunderscore, hhyphen]
  simp

theorem isName : isName parts.name.toList = true :=
  isName_iff.2 ⟨parts.name_length, parts.name_chars, parts.name_begins⟩

/-- No underscore stands in a name. -/
theorem underscore_not_mem_name : '_' ∉ parts.name.toList := fun h => by
  rcases parts.name_chars _ h with hlower | hdigit
  · exact absurd (isLower_iff.2 hlower) (by decide)
  · exact absurd (isDigit_iff.2 hdigit) (by decide)

/-- So the text is cut after the name, -/
theorem splitAtFirst_text :
    splitAtFirst '_' parts.text.toList = some (parts.name.toList, parts.numbers) :=
  splitAtFirst_eq_some_iff.2 ⟨parts.toList_text, parts.underscore_not_mem_name⟩

/-- and then after the number, since there is no hyphen in a numeral. -/
theorem splitAtFirst_numbers : splitAtFirst '-' parts.numbers =
    some (Decimal.digits parts.number, Decimal.digits parts.revision) :=
  splitAtFirst_eq_some_iff.2
    ⟨rfl, fun h => absurd (Decimal.isDigit_of_mem_digits h) (by decide)⟩

/-- The parts of a self-service chain id can be read off it. -/
theorem text_injective : Function.Injective text := by
  intro parts parts' h
  have hcut : some (parts.name.toList, parts.numbers) =
      some (parts'.name.toList, parts'.numbers) := by
    rw [← splitAtFirst_text, h, splitAtFirst_text]
  obtain ⟨hname, hnumbers⟩ := Prod.mk.inj (Option.some.inj hcut)
  have hcut' : some (Decimal.digits parts.number, Decimal.digits parts.revision) =
      some (Decimal.digits parts'.number, Decimal.digits parts'.revision) := by
    rw [← splitAtFirst_numbers, hnumbers, splitAtFirst_numbers]
  obtain ⟨hnumber, hrevision⟩ := Prod.mk.inj (Option.some.inj hcut')
  exact Parts.ext (String.toList_inj.1 hname) (Decimal.digits_injective hnumber)
    (Decimal.digits_injective hrevision)

/-- A self-service chain id that is not too long is in the general format. -/
theorem general_text (h : parts.text.length ≤ 48) : General parts.text := by
  obtain ⟨first, rest, hname, hfirst⟩ := parts.name_begins
  refine ⟨⟨?_, h⟩, ?_, first, rest ++ '_' :: parts.numbers, ?_, .inl hfirst⟩
  · have hlength := congrArg List.length parts.toList_text
    rw [String.length_toList, List.length_append, List.length_cons] at hlength
    omega
  · have hdigit {n : Nat} {c : Char} (hc : c ∈ Decimal.digits n) : IsDigit c :=
      isDigit_iff.1 (Decimal.isDigit_of_mem_digits hc)
    intro c hc
    rw [toList_text, numbers] at hc
    simp only [List.mem_append, List.mem_cons] at hc
    rcases hc with hc | rfl | hc | rfl | hc
    · exact (parts.name_chars c hc).imp .inl .inl
    · exact .inr (.inr (.inl rfl))
    · exact .inr (.inl (hdigit hc))
    · exact .inr (.inr (.inr (.inl rfl)))
    · exact .inr (.inl (hdigit hc))
  · rw [toList_text, hname, List.cons_append]

end Parts

/-- A text is accepted if it is short enough, and made of parts. -/
theorem isSelfService_iff {id : String} :
    isSelfService id = true ↔ id.length ≤ 48 ∧ ∃ parts : Parts, parts.text = id := by
  constructor
  · intro h
    rw [isSelfService, Bool.and_eq_true] at h
    obtain ⟨hvalid, h⟩ := h
    split at h
    next => cases h
    next name numbers hname =>
      split at h
      next => cases h
      next number revision hnumber =>
        simp only [Bool.and_eq_true, isPositive_iff, isName_iff] at h
        obtain ⟨⟨⟨hlength, hchars, hbegins⟩, n, hn, rfl⟩, r, hr, rfl⟩ := h
        rw [← String.toList_ofList (l := name)] at hlength hchars hbegins
        rw [String.length_toList] at hlength
        let parts : Parts := ⟨String.ofList name, n, r, hlength, hchars, hbegins, hn, hr⟩
        refine ⟨(isValid_iff.1 hvalid).length.2, parts, String.toList_inj.1 ?_⟩
        rw [parts.toList_text, (splitAtFirst_eq_some_iff.1 hname).1, Parts.numbers,
          (splitAtFirst_eq_some_iff.1 hnumber).1, String.toList_ofList]
  · rintro ⟨hlength, parts, rfl⟩
    have hnumber := isPositive_iff.2 ⟨parts.number, parts.number_range, rfl⟩
    have hrevision := isPositive_iff.2 ⟨parts.revision, parts.revision_range, rfl⟩
    rw [isSelfService, isValid_iff.2 (parts.general_text hlength), parts.splitAtFirst_text]
    simp [parts.splitAtFirst_numbers, parts.isName, hnumber, hrevision]

/-- The greatest word is a number, and the next number is none. -/
example : isSelfService "a_18446744073709551615-1" = true ∧
    isSelfService "a_18446744073709551616-1" = false := by decide +kernel

/-- **Each recogniser accepts its format.** The general one accepts 1 to 48 letters, digits and
marks, of which the first is a letter. The other one accepts the texts of at most 48 characters that
are made of a name and two positive 64-bit numbers, printed without sign and without leading zeros.
No two choices of these make the same text. -/
theorem grammars :
    (∀ id, isValid id = true ↔ General id) ∧
    (∀ id, isSelfService id = true ↔ id.length ≤ 48 ∧ ∃ parts : Parts, parts.text = id) ∧
    ∀ parts parts' : Parts, parts.text = parts'.text →
      parts.name = parts'.name ∧ parts.number = parts'.number ∧
        parts.revision = parts'.revision := by
  refine ⟨fun _ => isValid_iff, fun _ => isSelfService_iff, fun parts parts' h => ?_⟩
  rw [Parts.text_injective h]
  exact ⟨rfl, rfl, rfl⟩

end Chainlets.ChainId
