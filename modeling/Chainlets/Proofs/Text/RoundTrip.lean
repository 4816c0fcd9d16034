import Chainlets.Text.Utf8

/-!
# Text survives its bytes

Every text is read back from its UTF-8 bytes, strictly and leniently, and the bytes of texts are
ordered like the texts. So a family of values that is kept under the bytes of names is kept under
the names, in the order of the names.

Both facts are proved for one character with anything after it. The bytes of a character are the
digits of its code point in base 64, and the first byte tells how many there are; every case below
is arithmetic on these digits.

## Main results

* `Utf8.front_encodeChar` — the bytes of a character begin with that character.
* `Utf8.decode_encode`, `Utf8.decodeLossy_encode` — text survives its bytes.
* `Utf8.encode_injective`.
* `Utf8.compare_encode` — the bytes of texts are ordered like the texts.
-/

namespace Chainlets.Utf8

/-! ### The bytes of one character -/

/-- A code point is below the gap of the surrogates or between the gap and the end. -/
theorem codePoint_cases (c : Char) :
    c.val.toNat < 0xD800 ∨ 0xDFFF < c.val.toNat ∧ c.val.toNat < 0x110000 := c.valid

theorem toNat_ofNat_lt {n : Nat} (h : n < 256) : (UInt8.ofNat n).toNat = n := by
  rw [UInt8.toNat_ofNat']
  exact Nat.mod_eq_of_lt h

/-! The first bytes of characters of two, three and four bytes, and the bytes after them. -/

theorem toNat_lead₂ (n : Nat) : (UInt8.ofNat (n % 32 + 0xC0)).toNat = n % 32 + 0xC0 :=
  toNat_ofNat_lt (by omega)

theorem toNat_lead₃ (n : Nat) : (UInt8.ofNat (n % 16 + 0xE0)).toNat = n % 16 + 0xE0 :=
  toNat_ofNat_lt (by omega)

theorem toNat_lead₄ (n : Nat) : (UInt8.ofNat (n % 8 + 0xF0)).toNat = n % 8 + 0xF0 :=
  toNat_ofNat_lt (by omega)

theorem toNat_tail (n : Nat) : (UInt8.ofNat (n % 64 + 0x80)).toNat = n % 64 + 0x80 :=
  toNat_ofNat_lt (by omega)

theorem isTail_iff {b : UInt8} : isTail b = true ↔ 0x80 ≤ b.toNat ∧ b.toNat ≤ 0xBF := by
  simp [isTail, UInt8.le_iff_toNat_le]

theorem isTail_tail (n : Nat) : isTail (UInt8.ofNat (n % 64 + 0x80)) = true := by
  rw [isTail_iff, toNat_tail]
  omega

theorem isSecondOfThree_iff {a b : UInt8} : isSecondOfThree a b = true ↔
    isTail b = true ∧ (a.toNat = 0xE0 → 0xA0 ≤ b.toNat) ∧ (a.toNat = 0xED → b.toNat ≤ 0x9F) := by
  simp only [isSecondOfThree, Bool.and_eq_true, Bool.or_eq_true, bne_iff_ne, decide_eq_true_eq,
    UInt8.le_iff_toNat_le, ne_eq, ← UInt8.toNat_inj, and_assoc, Decidable.imp_iff_not_or]
  rfl

theorem isSecondOfFour_iff {a b : UInt8} : isSecondOfFour a b = true ↔
    isTail b = true ∧ (a.toNat = 0xF0 → 0x90 ≤ b.toNat) ∧ (a.toNat = 0xF4 → b.toNat ≤ 0x8F) := by
  simp only [isSecondOfFour, Bool.and_eq_true, Bool.or_eq_true, bne_iff_ne, decide_eq_true_eq,
    UInt8.le_iff_toNat_le, ne_eq, ← UInt8.toNat_inj, and_assoc, Decidable.imp_iff_not_or]
  rfl

/-- A range of bytes is a range of their values. -/
theorem inRange_iff (low high a : UInt8) :
    (low ≤ a && a ≤ high) = true ↔ low.toNat ≤ a.toNat ∧ a.toNat ≤ high.toNat := by
  simp [UInt8.le_iff_toNat_le]

/-! What stands at the front, by the range of the first byte. -/

theorem front_one {a : UInt8} (h : a.toNat ≤ 0x7F) (rest : Bytes) :
    front a rest = .char (Char.ofNat a.toNat) := by
  rw [front.eq_def, if_pos (UInt8.le_iff_toNat_le.2 h)]

theorem front_two {a b : UInt8} (h : 0xC2 ≤ a.toNat) (h' : a.toNat ≤ 0xDF)
    (hb : isTail b = true) (rest : Bytes) : front a (b :: rest) = .char (char₂ a b) := by
  have h₁ : ¬ a ≤ 0x7F := fun h₁ => absurd (Nat.le_trans h (UInt8.le_iff_toNat_le.1 h₁)) (by decide)
  rw [front.eq_def, if_neg h₁, if_pos ((inRange_iff 0xC2 0xDF a).2 ⟨h, h'⟩)]
  simp only [hb, if_true]

theorem front_three {a b c : UInt8} (h : 0xE0 ≤ a.toNat) (h' : a.toNat ≤ 0xEF)
    (hb : isSecondOfThree a b = true) (hc : isTail c = true) (rest : Bytes) :
    front a (b :: c :: rest) = .char (char₃ a b c) := by
  have h₁ : ¬ a ≤ 0x7F := fun h₁ => absurd (Nat.le_trans h (UInt8.le_iff_toNat_le.1 h₁)) (by decide)
  have h₂ : ¬ (0xC2 ≤ a && a ≤ 0xDF) = true := fun h₂ =>
    absurd (Nat.le_trans h ((inRange_iff _ _ a).1 h₂).2) (by decide)
  rw [front.eq_def, if_neg h₁, if_neg h₂, if_pos ((inRange_iff 0xE0 0xEF a).2 ⟨h, h'⟩)]
  simp only [hb, hc, if_true]

theorem front_four {a b c d : UInt8} (h : 0xF0 ≤ a.toNat) (h' : a.toNat ≤ 0xF4)
    (hb : isSecondOfFour a b = true) (hc : isTail c = true) (hd : isTail d = true) (rest : Bytes) :
    front a (b :: c :: d :: rest) = .char (char₄ a b c d) := by
  have h₁ : ¬ a ≤ 0x7F := fun h₁ => absurd (Nat.le_trans h (UInt8.le_iff_toNat_le.1 h₁)) (by decide)
  have h₂ : ¬ (0xC2 ≤ a && a ≤ 0xDF) = true := fun h₂ =>
    absurd (Nat.le_trans h ((inRange_iff _ _ a).1 h₂).2) (by decide)
  have h₃ : ¬ (0xE0 ≤ a && a ≤ 0xEF) = true := fun h₃ =>
    absurd (Nat.le_trans h ((inRange_iff _ _ a).1 h₃).2) (by decide)
  rw [front.eq_def, if_neg h₁, if_neg h₂, if_neg h₃, if_pos ((inRange_iff 0xF0 0xF4 a).2 ⟨h, h'⟩)]
  simp only [hb, hc, hd, if_true]

/-- The four shapes of the bytes of a character, as digits of its code point. -/
theorem encodeChar_cases (c : Char) :
    let v := c.val.toNat
    (v ≤ 0x7F ∧ String.utf8EncodeChar c = [UInt8.ofNat v]) ∨
    (0x7F < v ∧ v ≤ 0x7FF ∧ String.utf8EncodeChar c =
      [UInt8.ofNat (v / 64 % 32 + 0xC0), UInt8.ofNat (v % 64 + 0x80)]) ∨
    (0x7FF < v ∧ v ≤ 0xFFFF ∧ String.utf8EncodeChar c =
      [UInt8.ofNat (v / 4096 % 16 + 0xE0), UInt8.ofNat (v / 64 % 64 + 0x80),
        UInt8.ofNat (v % 64 + 0x80)]) ∨
    (0xFFFF < v ∧ String.utf8EncodeChar c =
      [UInt8.ofNat (v / 262144 % 8 + 0xF0), UInt8.ofNat (v / 4096 % 64 + 0x80),
        UInt8.ofNat (v / 64 % 64 + 0x80), UInt8.ofNat (v % 64 + 0x80)]) := by
  intro v
  by_cases h₁ : v ≤ 0x7F
  · left
    exact ⟨h₁, by rw [String.utf8EncodeChar, if_pos h₁]⟩
  right
  by_cases h₂ : v ≤ 0x7FF
  · left
    exact ⟨by omega, h₂, by rw [String.utf8EncodeChar, if_neg h₁, if_pos h₂]⟩
  right
  by_cases h₃ : v ≤ 0xFFFF
  · left
    exact ⟨by omega, h₃, by rw [String.utf8EncodeChar, if_neg h₁, if_neg h₂, if_pos h₃]⟩
  · right
    exact ⟨by omega, by rw [String.utf8EncodeChar, if_neg h₁, if_neg h₂, if_neg h₃]⟩

/-- **The bytes of a character begin with that character**, whatever follows. -/
theorem front_encodeChar (c : Char) (rest : Bytes) :
    ∃ a tail, String.utf8EncodeChar c = a :: tail ∧ tail.length + 1 = c.utf8Size ∧
      front a (tail ++ rest) = .char c := by
  have hv := codePoint_cases c
  have hlength := String.length_utf8EncodeChar c
  rcases encodeChar_cases c with ⟨h, he⟩ | ⟨h, h', he⟩ | ⟨h, h', he⟩ | ⟨h, he⟩ <;>
    rw [he] at hlength
  · refine ⟨_, _, he, hlength, ?_⟩
    have ha : (UInt8.ofNat c.val.toNat).toNat = c.val.toNat := toNat_ofNat_lt (by omega)
    rw [front_one (by omega), ha]
    exact congrArg Piece.char (Char.ofNat_toNat c)
  · refine ⟨_, _, he, hlength, ?_⟩
    have ha := toNat_lead₂ (c.val.toNat / 64)
    have hb := toNat_tail c.val.toNat
    rw [List.cons_append, front_two (by omega) (by omega) (isTail_tail _), char₂, ha, hb,
      show (c.val.toNat / 64 % 32 + 0xC0 - 0xC0) * 64 + (c.val.toNat % 64 + 0x80 - 0x80)
        = c.val.toNat by omega]
    exact congrArg Piece.char (Char.ofNat_toNat c)
  · refine ⟨_, _, he, hlength, ?_⟩
    have ha := toNat_lead₃ (c.val.toNat / 4096)
    have hb := toNat_tail (c.val.toNat / 64)
    have hc := toNat_tail c.val.toNat
    have hsecond := isSecondOfThree_iff.2 ⟨isTail_tail (c.val.toNat / 64),
      fun h => by rw [ha] at h; rw [hb]; omega, fun h => by rw [ha] at h; rw [hb]; omega⟩
    rw [List.cons_append, List.cons_append,
      front_three (by omega) (by omega) hsecond (isTail_tail _), char₃, ha, hb, hc,
      show (c.val.toNat / 4096 % 16 + 0xE0 - 0xE0) * 4096
          + (c.val.toNat / 64 % 64 + 0x80 - 0x80) * 64 + (c.val.toNat % 64 + 0x80 - 0x80)
        = c.val.toNat by omega]
    exact congrArg Piece.char (Char.ofNat_toNat c)
  · refine ⟨_, _, he, hlength, ?_⟩
    have ha := toNat_lead₄ (c.val.toNat / 262144)
    have hb := toNat_tail (c.val.toNat / 4096)
    have hc := toNat_tail (c.val.toNat / 64)
    have hd := toNat_tail c.val.toNat
    have hsecond := isSecondOfFour_iff.2 ⟨isTail_tail (c.val.toNat / 4096),
      fun h => by rw [ha] at h; rw [hb]; omega, fun h => by rw [ha] at h; rw [hb]; omega⟩
    rw [List.cons_append, List.cons_append, List.cons_append,
      front_four (by omega) (by omega) hsecond (isTail_tail _) (isTail_tail _), char₄,
      ha, hb, hc, hd,
      show (c.val.toNat / 262144 % 8 + 0xF0 - 0xF0) * 262144
          + (c.val.toNat / 4096 % 64 + 0x80 - 0x80) * 4096
          + (c.val.toNat / 64 % 64 + 0x80 - 0x80) * 64 + (c.val.toNat % 64 + 0x80 - 0x80)
        = c.val.toNat by omega]
    exact congrArg Piece.char (Char.ofNat_toNat c)

/-! ### Whole texts -/

theorem piecesFrom_length (front : Bytes) (rest : Bytes) :
    piecesFrom front.length (front ++ rest) = piecesFrom 0 rest := by
  induction front with
  | nil => rfl
  | cons b front ih => simpa [piecesFrom] using ih

/-- A character is cut off the front of a byte string as one piece. -/
theorem pieces_encodeChar_append (c : Char) (rest : Bytes) :
    pieces (String.utf8EncodeChar c ++ rest) = .char c :: pieces rest := by
  obtain ⟨a, tail, he, hsize, hfront⟩ := front_encodeChar c rest
  rw [he, List.cons_append, pieces, piecesFrom, hfront]
  simp only [Piece.width, ← hsize, Nat.add_sub_cancel]
  rw [piecesFrom_length, pieces]

theorem pieces_flatMap (cs : List Char) :
    pieces (cs.flatMap String.utf8EncodeChar) = cs.map .char := by
  induction cs with
  | nil => rfl
  | cons c cs ih => rw [List.flatMap_cons, pieces_encodeChar_append, ih, List.map_cons]

theorem pieces_encode (s : String) : pieces (encode s) = s.toList.map .char :=
  pieces_flatMap s.toList

theorem collect_chars (cs : List Char) : ∀ position, collect position (cs.map .char) = .ok cs := by
  induction cs with
  | nil => intro _; rfl
  | cons c cs ih => intro position; rw [List.map_cons, collect, ih]; rfl

/-- **Text survives its bytes.** -/
@[simp]
theorem decode_encode (s : String) : decode (encode s) = .ok s := by
  rw [decode, pieces_encode, collect_chars]
  exact congrArg Except.ok String.ofList_toList

@[simp]
theorem decodeLossy_encode (s : String) : decodeLossy (encode s) = s := by
  rw [decodeLossy, pieces_encode, List.map_map]
  have hid : Piece.toChar ∘ Piece.char = id := rfl
  rw [hid, List.map_id, String.ofList_toList]

theorem encode_injective : Function.Injective encode := by
  intro s t h
  rw [← decodeLossy_encode s, h, decodeLossy_encode]

/-! ### The order of texts -/

/-- Two lists of numbers differ first at a place where the first one is lower. -/
def Below : List Nat → List Nat → Prop
  | a :: x, b :: y => a < b ∨ a = b ∧ Below x y
  | _, _ => False

theorem compare_cons (a b : UInt8) (x y : Bytes) :
    compare (a :: x) (b :: y) = (compare a b).then (compare x y) := List.compareLex_cons_cons

/-- Bytes that differ first at a place where the first ones are lower are lower, whatever
follows. -/
theorem compare_append_of_below {x y : Bytes} :
    ∀ {p q : Bytes}, Below (p.map UInt8.toNat) (q.map UInt8.toNat) → compare (p ++ x) (q ++ y) = .lt
  | [], _, h => by simp [Below] at h
  | _ :: _, [], h => by simp [Below] at h
  | a :: p, b :: q, h => by
    rw [List.cons_append, List.cons_append, compare_cons]
    rcases h with h | ⟨h, hpq⟩
    · rw [Std.compare_eq_lt.2 (UInt8.lt_iff_toNat_lt.2 h)]
      rfl
    · cases UInt8.toNat_inj.1 h
      rw [Std.ReflOrd.compare_self, compare_append_of_below hpq]
      rfl

theorem compare_append_left {x y : Bytes} : ∀ p : Bytes, compare (p ++ x) (p ++ y) = compare x y
  | [] => rfl
  | a :: p => by
    rw [List.cons_append, List.cons_append, compare_cons, Std.ReflOrd.compare_self,
      compare_append_left p]
    rfl

/-- Of two numbers, the lower one is lower in its leading part or, if those agree, in its last
digit to the base 64. -/
theorem lastDigit_lt {v w : Nat} (h : v < w) :
    v / 64 < w / 64 ∨ v / 64 = w / 64 ∧ v % 64 < w % 64 := by omega

/-- Two numbers of four digits to the base 64 differ first at a place where the lower one is
lower. -/
theorem fourDigits_lt {v w : Nat} (h : v < w) (hw : w < 0x110000) :
    v / 262144 % 8 < w / 262144 % 8 ∨ v / 262144 % 8 = w / 262144 % 8 ∧
      (v / 4096 % 64 < w / 4096 % 64 ∨ v / 4096 % 64 = w / 4096 % 64 ∧
        (v / 64 % 64 < w / 64 % 64 ∨ v / 64 % 64 = w / 64 % 64 ∧ v % 64 < w % 64)) := by
  have two (n : Nat) : n / 4096 = n / 64 / 64 := by rw [Nat.div_div_eq_div_mul]
  have three (n : Nat) : n / 262144 = n / 64 / 64 / 64 := by
    rw [Nat.div_div_eq_div_mul, Nat.div_div_eq_div_mul]
  rw [two v, two w, three v, three w]
  have hw₁ : w / 64 < 0x4400 := by omega
  rcases lastDigit_lt h with h | ⟨heq, h⟩
  · generalize v / 64 = v at *
    generalize w / 64 = w at *
    have hw₂ : w / 64 < 0x110 := by omega
    rcases lastDigit_lt h with h | ⟨heq, h⟩ <;> omega
  · rw [heq]
    omega

/-- The bytes of a lower character are lower, whatever follows. -/
theorem compare_encodeChar {c d : Char} (h : c < d) (x y : Bytes) :
    compare (String.utf8EncodeChar c ++ x) (String.utf8EncodeChar d ++ y) = .lt := by
  have hlt : c.val.toNat < d.val.toNat := UInt32.lt_iff_toNat_lt.1 h
  have hc := codePoint_cases c
  have hd := codePoint_cases d
  have hfour := fourDigits_lt hlt (by omega)
  refine compare_append_of_below ?_
  -- Characters of different widths differ in the first byte, and those of one width are numbers of
  -- equally many digits.
  rcases encodeChar_cases c with ⟨h₁, he⟩ | ⟨h₁, h₂, he⟩ | ⟨h₁, h₂, he⟩ | ⟨h₁, he⟩ <;>
  rcases encodeChar_cases d with ⟨k₁, ke⟩ | ⟨k₁, k₂, ke⟩ | ⟨k₁, k₂, ke⟩ | ⟨k₁, ke⟩ <;>
  · simp only [he, ke, List.map_cons, List.map_nil, Below, toNat_lead₂, toNat_lead₃, toNat_lead₄,
      toNat_tail, UInt8.toNat_ofNat', Nat.reducePow]
    omega

theorem compare_flatMap : ∀ {cs ds : List Char}, cs < ds →
    compare (cs.flatMap String.utf8EncodeChar) (ds.flatMap String.utf8EncodeChar) = .lt
  | _, [], h => absurd h (List.not_lt_nil _)
  | [], d :: ds, _ => by
    obtain ⟨a, tail, he, -, -⟩ := front_encodeChar d []
    rw [List.flatMap_nil, List.flatMap_cons, he]
    rfl
  | c :: cs, d :: ds, h => by
    rw [List.flatMap_cons, List.flatMap_cons]
    rcases List.cons_lt_cons_iff.1 h with h | ⟨heq, h⟩
    · exact compare_encodeChar h _ _
    · rw [heq, compare_append_left]
      exact compare_flatMap h

/-- **The bytes of texts are ordered like the texts.** -/
theorem compare_encode {s t : String} (h : compare s t = .lt) :
    compare (encode s) (encode t) = .lt := by
  have hlt : s < t := compareOfLessAndEq_eq_lt.1 h
  exact compare_flatMap hlt

/-- The bytes of texts compare like the texts. -/
theorem compare_encode_eq (s t : String) : compare (encode s) (encode t) = compare s t := by
  cases h : compare s t with
  | lt => exact compare_encode h
  | eq =>
    cases Std.LawfulEqCmp.compare_eq_iff_eq.1 h
    exact Std.ReflOrd.compare_self
  | gt => exact Std.OrientedCmp.gt_of_lt (compare_encode (Std.OrientedCmp.lt_of_gt h))

end Chainlets.Utf8
