import Chainlets.Data.Word

/-!
# Heights and times

Block heights, block times and the durations between them. Additions stop at the greatest word, so
a deadline is never before the moment it is counted from.

## Main definitions

* `Height`, with `Height.add` and `Height.isMultipleOf`.
* `Time`, in nanoseconds since the epoch, with `Time.ofSecs`, `Time.secs` and `Time.add`.
* `Duration`, of any length, with `Duration.nanosWord`.
-/

namespace Chainlets

/-- The height of a block, on the parent chain or on a chainlet. -/
structure Height where
  /-- The number of the block. -/
  number : UInt64
deriving DecidableEq, Repr, Inhabited

namespace Height

/-- The height a number of blocks later. -/
def add (h : Height) (blocks : UInt64) : Height := ⟨Word.add h.number blocks⟩

/-- Whether a height is a multiple of an interval. No height is a multiple of zero. -/
def isMultipleOf (h : Height) (interval : UInt64) : Bool :=
  interval != 0 && h.number % interval == 0

/-- The text of a height. -/
def render (h : Height) : String := s!"{h.number}"

@[simp]
theorem toNat_number_add (h : Height) (blocks : UInt64) :
    (h.add blocks).number.toNat = min (h.number.toNat + blocks.toNat) Word.maxNat :=
  Word.toNat_add ..

end Height

/-- The number of nanoseconds in a second. -/
def nanosPerSec : Nat := 1000000000

/-- A length of time. -/
structure Duration where
  /-- Its length in nanoseconds. -/
  nanos : Nat
deriving DecidableEq, Repr, Inhabited

namespace Duration

/-- A number of seconds. -/
def ofSecs (secs : UInt64) : Duration := ⟨secs.toNat * nanosPerSec⟩

/-- The number of whole seconds. -/
def secs (d : Duration) : Nat := d.nanos / nanosPerSec

/-- Its length as a word, or the greatest word if it is longer than that. -/
def nanosWord (d : Duration) : UInt64 := Word.clamp d.nanos

@[simp]
theorem toNat_nanosWord (d : Duration) : d.nanosWord.toNat = min d.nanos Word.maxNat :=
  Word.toNat_clamp _

end Duration

/-- A block time. -/
structure Time where
  /-- Nanoseconds since the epoch. -/
  nanos : UInt64
deriving DecidableEq, Repr, Inhabited

namespace Time

/-- The time a number of seconds after the epoch. -/
def ofSecs (secs : UInt64) : Time := ⟨Word.mul secs (.ofNat nanosPerSec)⟩

/-- The number of whole seconds since the epoch. -/
def secs (t : Time) : UInt64 := t.nanos / 1000000000

/-- The time a duration later. The duration is cut down to a word first. -/
def add (t : Time) (d : Duration) : Time := ⟨Word.add t.nanos d.nanosWord⟩

/-- The two limits come to one: the sum is exact, or it is the greatest word. -/
@[simp]
theorem toNat_nanos_add (t : Time) (d : Duration) :
    (t.add d).nanos.toNat = min (t.nanos.toNat + d.nanos) Word.maxNat := by
  rw [add, Word.toNat_add, Duration.toNat_nanosWord]
  omega

end Time

end Chainlets
