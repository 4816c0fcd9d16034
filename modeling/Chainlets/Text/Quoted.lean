import Chainlets.Text.Unprintable

/-!
# Quoted text

Messages quote what an outsider sent, so that blank, invisible and control characters show. A
quotation mark of the kind that surrounds the text is escaped, the other kind is not.

## Main definitions

* `Quoted.escape` — the characters that stand for one character.
* `Quoted.text` — a text in double quotation marks.
* `Quoted.char` — a character in single quotation marks.
-/

namespace Chainlets.Quoted

/-- The characters that stand for one character between quotation marks of a given kind. -/
def escape (mark c : Char) : List Char :=
  if c = '\x00' then ['\\', '0']
  else if c = '\t' then ['\\', 't']
  else if c = '\r' then ['\\', 'r']
  else if c = '\n' then ['\\', 'n']
  else if c = '\\' ∨ c = mark then ['\\', c]
  else if Unprintable.isUnprintable c then
    ['\\', 'u', '\x7b'] ++ Nat.toDigits 16 c.toNat ++ ['\x7d']
  else [c]

/-- A text in double quotation marks. -/
def text (s : String) : String := String.ofList ('"' :: s.toList.flatMap (escape '"') ++ ['"'])

/-- A character in single quotation marks. -/
def char (c : Char) : String := String.ofList ('\'' :: escape '\'' c ++ ['\''])

end Chainlets.Quoted
