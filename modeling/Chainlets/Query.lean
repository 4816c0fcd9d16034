import Chainlets.VersionTree.Cache

/-!
# Pages of lists

Lists of stacks and of chainlets are read in pages. A page begins at a key, which need not be
there, and says at which key the next page begins.

## Main definitions

* `PageRequest`, `Page`.
* `Page.cut` — the page of a sorted list.
* `Query.chainletPage`, `Query.stackPage`.
-/

namespace Chainlets

/-- Which page is asked for. -/
structure PageRequest where
  /-- The first key of the page, or nothing for the first page. -/
  start? : Option String
  /-- The number of items of the page, or zero for the usual number. -/
  limit : Nat
deriving DecidableEq, Repr, Inhabited

/-- A page of a list. -/
structure Page (α : Type) where
  /-- The items of the page. -/
  items : List α
  /-- The key of the first item of the next page, if there is one. -/
  next? : Option String
  /-- The number of items of all pages. -/
  total : Nat
deriving DecidableEq, Repr

namespace Page

/-- The usual number of items of a page. -/
def usualLimit : Nat := 100

/-- Whether an item comes before the start of a page. -/
def isBefore (start? : Option String) (key : String) : Bool :=
  match start? with
  | some start => key < start
  | none => false

/-- The page of a list that is sorted by a key. -/
def cut {α : Type} (key : α → String) (items : List α) (request : PageRequest) : Page α :=
  let limit := if request.limit = 0 then usualLimit else request.limit
  let rest := items.dropWhile fun item => isBefore request.start? (key item)
  ⟨rest.take limit, (rest.drop limit).head?.map key, items.length⟩

end Page

namespace Query

variable {κ : Type} [Readable κ]

/-- A page of the chainlets, in the order of their chain ids. -/
def chainletPage (r : κ) (request : PageRequest) : Except StorageFault (Page Chainlet) := do
  let items ← Readable.allChainlets r
  return .cut (·.chainId) items request

/-- A page of the stacks, in the order of their names. -/
def stackPage (r : κ) (request : PageRequest) : Except StorageFault (Page Stack) := do
  let items ← Readable.allStacks r
  return .cut (·.name) items request

end Query

end Chainlets
