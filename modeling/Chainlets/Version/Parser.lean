import Chainlets.Data.Word
import Chainlets.Text.Decimal
import Chainlets.Text.Quoted
import Chainlets.Version.Basic

/-!
# Reading versions

The grammar of semantic versions: three numerals without leading zeros, separated by dots, then an
optional pre-release identifier after a hyphen and optional build metadata after a plus sign. Both
are dot-separated segments of ASCII letters, digits and hyphens. The first fault from the left is
reported.

## Main definitions

* `Version.Fault` — why a text is no version, with its wording.
* `Version.ofChars` — the reader.
-/

namespace Chainlets.Version

/-- A part of a version. -/
inductive Part where
  | major
  | minor
  | patch
  | preRelease
  | build
deriving DecidableEq, Repr

/-- The name of a part. -/
def Part.name : Part → String
  | .major => "major version number"
  | .minor => "minor version number"
  | .patch => "patch version number"
  | .preRelease => "pre-release identifier"
  | .build => "build metadata"

/-- Why a text is no version. -/
inductive Fault where
  /-- The text is empty. -/
  | empty
  /-- A numeral has a superfluous zero in front. -/
  | leadingZero (part : Part)
  /-- A number does not fit into 64 bits. -/
  | overflow (part : Part)
  /-- The text ends where a part or the dot after it is due. -/
  | unexpectedEnd (part : Part)
  /-- A character stands where a part is due. -/
  | unexpected (c : Char) (part : Part)
  /-- A character stands after a part that cannot follow it. -/
  | unexpectedAfter (c : Char) (part : Part)
  /-- An identifier has nothing between two dots, or nothing at all. -/
  | emptySegment (part : Part)
deriving DecidableEq, Repr

/-- The wording of a fault. -/
def Fault.message : Fault → String
  | .empty => "empty string, expected a semver version"
  | .leadingZero part => s!"invalid leading zero in {part.name}"
  | .overflow part => s!"value of {part.name} exceeds u64::MAX"
  | .unexpectedEnd part => s!"unexpected end of input while parsing {part.name}"
  | .unexpected c part => s!"unexpected character {Quoted.char c} while parsing {part.name}"
  | .unexpectedAfter c part => s!"unexpected character {Quoted.char c} after {part.name}"
  | .emptySegment part => s!"empty identifier segment in {part.name}"

/-! ### Numbers -/

/-- The word that a run of digits stands for. A zero in front is found before an overflow, because
digits are read from the left. -/
def numberOf (part : Part) (digits : List Char) : Except Fault UInt64 :=
  match digits with
  | '0' :: _ :: _ => .error (.leadingZero part)
  | _ =>
    match Word.ofNat? (Decimal.value digits) with
    | some n => .ok n
    | none => .error (.overflow part)

/-- The number at the front of a text, and what follows it. -/
def number (part : Part) (cs : List Char) : Except Fault (UInt64 × List Char) :=
  match cs.takeWhile Char.isDigit, cs.dropWhile Char.isDigit with
  | [], [] => .error (.unexpectedEnd part)
  | [], c :: _ => .error (.unexpected c part)
  | digits, rest => (numberOf part digits).map fun n => (n, rest)

/-- What follows the dot at the front of a text. -/
def dot (part : Part) (cs : List Char) : Except Fault (List Char) :=
  match cs with
  | [] => .error (.unexpectedEnd part)
  | c :: rest => if c = '.' then .ok rest else .error (.unexpectedAfter c part)

/-! ### Identifiers -/

/-- Whether a character may stand in an identifier, dots included. -/
def isIdentifierChar (c : Char) : Bool := c.isAlphanum || c = '-' || c = '.'

/-- The segments between the dots of an identifier. -/
def segments : List Char → List (List Char)
  | [] => [[]]
  | c :: rest =>
    if c = '.' then [] :: segments rest
    else
      match segments rest with
      | s :: more => (c :: s) :: more
      | [] => [[c]]

/-- What is wrong with one segment. Only numeric segments of a pre-release may not begin with a
superfluous zero, since only those are compared as numbers. -/
def segmentFault? (part : Part) (segment : List Char) : Option Fault :=
  if segment.isEmpty then some (.emptySegment part)
  else if part = .preRelease ∧ segment.all Char.isDigit ∧ 1 < segment.length ∧
      segment.head? = some '0' then
    some (.leadingZero part)
  else none

/-- The identifier at the front of a text, and what follows it. -/
def identifier (part : Part) (cs : List Char) : Except Fault (String × List Char) :=
  let word := cs.takeWhile isIdentifierChar
  match (segments word).findSome? (segmentFault? part) with
  | some fault => .error fault
  | none => .ok (String.ofList word, cs.dropWhile isIdentifierChar)

/-- The identifier after a mark, if the mark stands at the front of a text. -/
def suffix (mark : Char) (part : Part) (cs : List Char) :
    Except Fault (Option String × List Char) :=
  match cs with
  | [] => .ok (none, [])
  | c :: rest =>
    if c = mark then (identifier part rest).map fun (word, rest) => (some word, rest)
    else .ok (none, cs)

/-! ### Versions -/

/-- The three numbers at the front of a text, and what follows them. -/
def numbers (cs : List Char) : Except Fault (Release × List Char) := do
  let (major, cs) ← number .major cs
  let cs ← dot .major cs
  let (minor, cs) ← number .minor cs
  let cs ← dot .minor cs
  let (patch, cs) ← number .patch cs
  return (⟨major, minor, patch⟩, cs)

/-- The part of a version that was read last. -/
def lastPart (pre build : Option String) : Part :=
  if build.isSome then .build else if pre.isSome then .preRelease else .patch

/-- The version that a text stands for. -/
def ofChars (cs : List Char) : Except Fault Version :=
  if cs.isEmpty then .error .empty
  else do
    let (release, cs) ← numbers cs
    let (pre, cs) ← suffix '-' .preRelease cs
    let (build, cs) ← suffix '+' .build cs
    match cs with
    | [] => return ⟨release, pre.getD "", build.getD ""⟩
    | c :: _ => throw (.unexpectedAfter c (lastPart pre build))

end Chainlets.Version
