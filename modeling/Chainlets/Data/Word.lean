/-!
# Machine words that stop at their limit

Heights, times and counts are 64-bit words, and sums of them must never wrap to a small number: a
deadline computed near the limit has to stay at the limit. So a sum or a product of two words is
taken in `Nat` and clamped.

## Main definitions

* `Word.clamp` — the nearest 64-bit word to a natural number.
* `Word.add`, `Word.mul` — sum and product, clamped.
* `Word.ofNat?` — the word equal to a natural number, if there is one.
-/

namespace Chainlets.Word

/-- The greatest 64-bit word, which is `2 ^ 64 - 1`. -/
def maxNat : Nat := 18446744073709551615

/-- The nearest 64-bit word to a natural number. -/
def clamp (n : Nat) : UInt64 := UInt64.ofNat (min n maxNat)

/-- The sum of two words, or the greatest word if the sum is above it. -/
def add (a b : UInt64) : UInt64 := clamp (a.toNat + b.toNat)

/-- The product of two words, or the greatest word if the product is above it. -/
def mul (a b : UInt64) : UInt64 := clamp (a.toNat * b.toNat)

/-- The word equal to a natural number, if there is one. -/
def ofNat? (n : Nat) : Option UInt64 := if n ≤ maxNat then some (UInt64.ofNat n) else none

theorem toNat_le_maxNat (a : UInt64) : a.toNat ≤ maxNat := Nat.le_sub_one_of_lt a.toNat_lt

theorem toNat_ofNat_of_le {n : Nat} (h : n ≤ maxNat) : (UInt64.ofNat n).toNat = n :=
  UInt64.toNat_ofNat_of_lt (Nat.lt_of_le_of_lt h (by decide))

@[simp]
theorem toNat_clamp (n : Nat) : (clamp n).toNat = min n maxNat :=
  toNat_ofNat_of_le (Nat.min_le_right ..)

@[simp]
theorem toNat_add (a b : UInt64) : (add a b).toNat = min (a.toNat + b.toNat) maxNat :=
  toNat_clamp _

@[simp]
theorem toNat_mul (a b : UInt64) : (mul a b).toNat = min (a.toNat * b.toNat) maxNat :=
  toNat_clamp _

/-- One can be added to a word that is not the greatest. -/
theorem toNat_add_one {a b : UInt64} (h : a < b) : (a + 1).toNat = a.toNat + 1 := by
  rw [UInt64.lt_iff_toNat_lt] at h
  have hb := b.toNat_lt
  rw [UInt64.toNat_add, UInt64.toNat_one, Nat.mod_eq_of_lt (by omega)]

/-- Every word is the exact reading of its own value. -/
@[simp]
theorem ofNat?_toNat (a : UInt64) : ofNat? a.toNat = some a := by
  rw [ofNat?, if_pos (toNat_le_maxNat a), UInt64.ofNat_toNat]

/-- An exact reading has the value that was read. -/
theorem toNat_of_ofNat?_eq_some {n : Nat} {a : UInt64} (h : ofNat? n = some a) : a.toNat = n := by
  rw [ofNat?] at h
  split at h
  next hn => cases h; exact toNat_ofNat_of_le hn
  next => cases h

end Chainlets.Word
