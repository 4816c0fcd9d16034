import Chainlets.Data.Word
import Chainlets.Text.Decimal

/-!
# Chain ids

Admins may use any chain id in the general format: 1 to 48 ASCII letters, digits, underscores,
hyphens and dots, of which the first is a letter. Everybody else has to use the self-service
format: a name, an underscore, a number, a hyphen and a revision, as in mychain_2713-1. The name
has 1 to 32 lowercase letters and digits and begins with a letter; number and revision are positive
64-bit numerals without leading zeros.

## Main definitions

* `ChainId.isValid` — the general format.
* `ChainId.isSelfService` — the self-service format.
-/

namespace Chainlets.ChainId

/-- The greatest length of a chain id. -/
def maxLength : Nat := 48

/-- The greatest length of the name in a self-service chain id. -/
def maxNameLength : Nat := 32

/-- Whether a character may stand in a chain id. -/
def isIdChar (c : Char) : Bool := c.isAlphanum || c = '_' || c = '-' || c = '.'

/-- Whether a text is in the general format. -/
def isValid (id : String) : Bool :=
  match id.toList with
  | [] => false
  | first :: rest => first.isAlpha && rest.length < maxLength && rest.all isIdChar

/-- The texts before and after the first occurrence of a character. -/
def splitAtFirst (mark : Char) : List Char → Option (List Char × List Char)
  | [] => none
  | c :: rest =>
    if c = mark then some ([], rest)
    else (splitAtFirst mark rest).map fun (before, after) => (c :: before, after)

/-- Whether a text is the name of a self-service chain id. -/
def isName : List Char → Bool
  | [] => false
  | first :: rest =>
    first.isLower && rest.length < maxNameLength && rest.all fun c => c.isLower || c.isDigit

/-- Whether a text is the numeral, without leading zeros, of a positive 64-bit number. -/
def isPositive (cs : List Char) : Bool :=
  Decimal.isNumeral cs && cs.head? != some '0' && Decimal.value cs ≤ Word.maxNat

/-- Whether a text is in the self-service format. -/
def isSelfService (id : String) : Bool :=
  isValid id &&
    match splitAtFirst '_' id.toList with
    | none => false
    | some (name, numbers) =>
      match splitAtFirst '-' numbers with
      | none => false
      | some (number, revision) => isName name && isPositive number && isPositive revision

end Chainlets.ChainId
