import Chainlets.Data.Amount

/-!
# Coins

An amount of a single denomination, as fees and deposits are named.

## Main definitions

* `Coin`, with `Coin.times?` and `Coin.render`.
-/

namespace Chainlets

/-- An amount of a single denomination. -/
structure Coin where
  /-- What is counted. -/
  denom : String
  /-- How much of it. -/
  amount : Amount
deriving DecidableEq

namespace Coin

/-- A coin taken a number of times, if the amount can be expressed. -/
def times? (coin : Coin) (factor : UInt64) : Option Coin :=
  (coin.amount.mul? factor).map fun amount => { coin with amount }

/-- The text of a coin: its amount directly before its denomination. -/
def render (coin : Coin) : String := s!"{coin.amount.toNat}{coin.denom}"

end Coin

end Chainlets
