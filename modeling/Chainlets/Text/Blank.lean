/-!
# Blank text

A name that consists of white space alone counts as missing. White space is the Unicode property
`White_Space`; zero-width characters such as U+200B do not have it and make a name that is not
blank.

## Main definitions

* `Blank.isBlank` — whether a character is white space.
* `Blank.isBlankText` — whether a text consists of white space.
-/

namespace Chainlets.Blank

/-- The ranges of the Unicode property `White_Space`. -/
def ranges : List (Nat × Nat) :=
  [(0x09, 0x0D), (0x20, 0x20), (0x85, 0x85), (0xA0, 0xA0), (0x1680, 0x1680), (0x2000, 0x200A),
    (0x2028, 0x2029), (0x202F, 0x202F), (0x205F, 0x205F), (0x3000, 0x3000)]

/-- Whether a character is white space. -/
def isBlank (c : Char) : Bool := ranges.any fun (low, high) => low ≤ c.toNat && c.toNat ≤ high

/-- Whether a text consists of white space, as the empty text does. -/
def isBlankText (s : String) : Bool := s.toList.all isBlank

end Chainlets.Blank
