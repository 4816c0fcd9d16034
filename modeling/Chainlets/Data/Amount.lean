/-!
# Amounts

An amount of money is a natural number below `2 ^ 128`. Products that would not fit are refused
instead of wrapped, because a fee that wraps would be nearly free.

## Main definitions

* `Amount`, with `Amount.ofNat?` and `Amount.mul?`.
-/

namespace Chainlets

/-- The least natural number that is too large for an amount, which is `2 ^ 128`. -/
def Amount.limit : Nat := 340282366920938463463374607431768211456

/-- A natural number below `2 ^ 128`. -/
structure Amount where
  /-- The number. -/
  toNat : Nat
  /-- It fits into 128 bits. -/
  toNat_lt : toNat < Amount.limit
deriving DecidableEq

namespace Amount

@[ext]
theorem ext {a b : Amount} (h : a.toNat = b.toNat) : a = b := by
  cases a; cases b; cases h; rfl

instance : Inhabited Amount := ⟨⟨0, by decide⟩⟩

/-- The amount equal to a natural number, if there is one. -/
def ofNat? (n : Nat) : Option Amount := if h : n < limit then some ⟨n, h⟩ else none

/-- The amount times a factor, if the product is an amount. -/
def mul? (a : Amount) (factor : UInt64) : Option Amount := ofNat? (a.toNat * factor.toNat)

@[simp]
theorem ofNat?_toNat (a : Amount) : ofNat? a.toNat = some a := by
  rw [ofNat?, dif_pos a.toNat_lt]

theorem ofNat?_eq_some_iff {n : Nat} {a : Amount} : ofNat? n = some a ↔ a.toNat = n := by
  refine ⟨fun h => ?_, fun h => h ▸ ofNat?_toNat a⟩
  rw [ofNat?] at h
  split at h
  next => cases h; rfl
  next => cases h

end Amount

end Chainlets
