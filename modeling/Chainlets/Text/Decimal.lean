/-!
# Decimal numerals

Numerals appear in versions, chain ids, plan names and JSON. They are written without sign and
without leading zeros; readers differ in what they accept, so this module has only the value of a
run of digits.

## Main definitions

* `Decimal.digits` — the digits of a number, without leading zeros.
* `Decimal.value` — the number that a run of digits stands for.
* `Decimal.isNumeral` — whether a text is a run of digits, and not an empty one.

## Main results

* `Decimal.value_digits` — the digits of a number stand for it.
-/

namespace Chainlets.Decimal

/-- The digits of a number, most significant first and without leading zeros. -/
def digits (n : Nat) : List Char := Nat.toDigits 10 n

/-- The number that a run of digits stands for. -/
def value (cs : List Char) : Nat := Nat.ofDigitChars 10 cs 0

/-- Whether a text is a run of ASCII digits, and not an empty one. -/
def isNumeral (cs : List Char) : Bool := !cs.isEmpty && cs.all Char.isDigit

/-- The digits of a number stand for it. -/
@[simp]
theorem value_digits (n : Nat) : value (digits n) = n := Nat.ofDigitChars_ten_toDigits

end Chainlets.Decimal
