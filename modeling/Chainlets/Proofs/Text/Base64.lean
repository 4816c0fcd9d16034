import Chainlets.Text.Base64

/-!
# Base64 is read back

Three bytes are twenty-four bits, and so are the four characters that are written for them: each
group is read back on its own. The mark that fills up the last group is no character of the
alphabet, so it is never taken for one, and a full group is never taken for the last.

## Main results

* `Base64.value?_symbol` — a character of the alphabet stands for its bits.
* `Base64.decode?_encode` — **byte strings are read back.**
-/

namespace Chainlets.Base64

/-! ### Characters -/

/-- A character of the alphabet stands for its bits. -/
theorem value?_symbol {n : Nat} (h : n < 64) : value? (symbol n) = some n := by
  revert n
  decide

/-- The mark that fills up a group is not in the alphabet. -/
theorem symbol_ne_pad {n : Nat} (h : n < 64) : symbol n ≠ '=' := by
  revert n
  decide

/-- A byte is the number that its bits make up. -/
theorem ofNat_eq_of_toNat {a : UInt8} {n : Nat} (h : n = a.toNat) : UInt8.ofNat n = a := by
  rw [h, UInt8.ofNat_toNat]

/-! ### Groups -/

theorem decodeChars?_full {c d e f : Char} (hf : f ≠ '=') (rest : List Char) :
    decodeChars? (c :: d :: e :: f :: rest) =
      (group? c d e f).bind fun bytes => (decodeChars? rest).map (bytes ++ ·) := by
  rw [decodeChars?.eq_def]
  split
  next heq => cases heq
  next heq => cases heq; exact absurd rfl hf
  next heq => cases heq; exact absurd rfl hf
  next heq =>
    cases heq
    cases group? c d e f with
    | none => rfl
    | some bytes => cases decodeChars? rest <;> rfl
  next h => exact absurd rfl (h c d e f rest)

theorem decodeChars?_two {c d e : Char} (he : e ≠ '=') :
    decodeChars? [c, d, e, '='] = lastTwo? c d e := by
  rw [decodeChars?.eq_def]
  split
  next heq => cases heq
  next heq => cases heq; exact absurd rfl he
  next heq => cases heq; rfl
  next hnot heq => cases heq; exact absurd rfl (hnot rfl)
  next h => exact absurd rfl (h c d e '=' [])

/-- A full group is read back. -/
theorem group?_symbol (a b c : UInt8) :
    group? (symbol (a.toNat / 4)) (symbol (a.toNat % 4 * 16 + b.toNat / 16))
      (symbol (b.toNat % 16 * 4 + c.toNat / 64)) (symbol (c.toNat % 64)) = some [a, b, c] := by
  have ha := a.toNat_lt
  have hb := b.toNat_lt
  have hc := c.toNat_lt
  rw [group?, value?_symbol (by omega), value?_symbol (by omega), value?_symbol (by omega),
    value?_symbol (by omega)]
  simp only [Option.bind_eq_bind, Option.bind_some]
  rw [ofNat_eq_of_toNat (a := a) (by omega), ofNat_eq_of_toNat (a := b) (by omega),
    ofNat_eq_of_toNat (a := c) (by omega)]
  rfl

/-- A last group of two bytes is read back. -/
theorem lastTwo?_symbol (a b : UInt8) :
    lastTwo? (symbol (a.toNat / 4)) (symbol (a.toNat % 4 * 16 + b.toNat / 16))
      (symbol (b.toNat % 16 * 4)) = some [a, b] := by
  have ha := a.toNat_lt
  have hb := b.toNat_lt
  rw [lastTwo?, value?_symbol (by omega), value?_symbol (by omega), value?_symbol (by omega)]
  simp only [Option.bind_eq_bind, Option.bind_some]
  rw [if_pos (by omega), ofNat_eq_of_toNat (a := a) (by omega),
    ofNat_eq_of_toNat (a := b) (by omega)]

/-- A last group of one byte is read back. -/
theorem lastOne?_symbol (a : UInt8) :
    lastOne? (symbol (a.toNat / 4)) (symbol (a.toNat % 4 * 16)) = some [a] := by
  have ha := a.toNat_lt
  rw [lastOne?, value?_symbol (by omega), value?_symbol (by omega)]
  simp only [Option.bind_eq_bind, Option.bind_some]
  rw [if_pos (by omega), ofNat_eq_of_toNat (a := a) (by omega)]

/-! ### Texts -/

theorem decodeChars?_encodeChars (bytes : Bytes) :
    decodeChars? (encodeChars bytes) = some bytes := by
  induction bytes using encodeChars.induct with
  | case1 => rfl
  | case2 a => exact lastOne?_symbol a
  | case3 a b =>
    have hb := b.toNat_lt
    rw [encodeChars, decodeChars?_two (symbol_ne_pad (by omega)), lastTwo?_symbol]
  | case4 a b c rest ih =>
    have hc := c.toNat_lt
    rw [encodeChars, decodeChars?_full (symbol_ne_pad (by omega)), group?_symbol, ih]
    rfl

/-- **Byte strings are read back.** -/
@[simp]
theorem decode?_encode (bytes : Bytes) : decode? (encode bytes) = some bytes := by
  rw [decode?, encode, String.toList_ofList, decodeChars?_encodeChars]

end Chainlets.Base64
