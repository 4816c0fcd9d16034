import Chainlets.Store.Basic
import Chainlets.Stored.State

/-!
# State variables

What is kept in the store, and under which keys. Each variable has a one-byte mark. A single value
lies under its mark alone; a family of values has the mark and then the bytes of a name, so the
scan of a mark yields exactly its family, in the order of the names.

| mark | variable | value |
| --- | --- | --- |
| 0 | stacks, by name | `Stack` |
| 1 | chainlets, by chain id | `Chainlet` |
| 2 | the number of chainlets | a word |
| 3 | the parameters | `Params` |
| 4 | consumers that wait for their first validators, by chain id | `ConsumerId` |

## Main definitions

* `Entry`, with `Entry.key` and `Entry.describe`.
* `StorageFault` — why a variable cannot be read or written.
* `Readable.stack?`, `Readable.allChainlets`, … — typed reads of anything readable.
-/

namespace Chainlets

/-- A place for one value of the state. -/
inductive Entry where
  | stack (name : String)
  | chainlet (chainId : String)
  | chainletCount
  | params
  | pendingInit (chainId : String)
deriving DecidableEq, Repr

namespace Entry

/-- The mark of the stacks. -/
def stackMark : UInt8 := 0

/-- The mark of the chainlets. -/
def chainletMark : UInt8 := 1

/-- The mark of the number of chainlets. -/
def chainletCountMark : UInt8 := 2

/-- The mark of the parameters. -/
def paramsMark : UInt8 := 3

/-- The mark of the consumers that wait for their first validators. -/
def pendingInitMark : UInt8 := 4

/-- The key under which a value lies. -/
def key : Entry → Bytes
  | .stack name => stackMark :: Utf8.encode name
  | .chainlet chainId => chainletMark :: Utf8.encode chainId
  | .chainletCount => [chainletCountMark]
  | .params => [paramsMark]
  | .pendingInit chainId => pendingInitMark :: Utf8.encode chainId

/-- The name of a place in messages. -/
def describe : Entry → String
  | .stack name => s!"Stack {name}"
  | .chainlet chainId => s!"Chainlet {chainId}"
  | .chainletCount => "Chainlet Count"
  | .params => "Params"
  | .pendingInit chainId => s!"Pending Init for chainlet {chainId}"

end Entry

/-- Why a variable cannot be read or written. -/
inductive StorageFault where
  /-- The stored bytes hold no value of the variable's type. -/
  | undecodable (entry : Entry) (fault : Stored.Fault)
  /-- There is no value, although there has to be one. -/
  | missing (entry : Entry)
  /-- A text or a list of the value is too long to be stored. -/
  | unencodable (entry : Entry)
deriving DecidableEq, Repr

/-- The wording of a fault. -/
def StorageFault.message : StorageFault → String
  | .undecodable entry fault => s!"failed to deserialize {entry.describe}: {fault.message}"
  | .missing entry => s!"{entry.describe} expected but not found"
  | .unencodable entry =>
    s!"failed to serialize {entry.describe}: invalid input parameter"

namespace Readable

variable {κ : Type} [Readable κ]

/-- The value at a place, if there is one. -/
def read? {α : Type} [Stored.Format α] (r : κ) (entry : Entry) :
    Except StorageFault (Option α) :=
  match get? r entry.key with
  | none => .ok none
  | some bytes => ((Stored.decode bytes).map some).mapError (.undecodable entry)

/-- The names and values of a family, in the order of the names. Keys that are not text are named
leniently. -/
def readAll {α : Type} [Stored.Format α] (r : κ) (mark : UInt8) (entry : String → Entry) :
    Except StorageFault (List (String × α)) :=
  (scan r [mark]).mapM fun (key, bytes) =>
    let name := Utf8.decodeLossy (key.drop 1)
    ((Stored.decode bytes).map fun a => (name, a)).mapError (.undecodable (entry name))

/-- The stack with a name. -/
def stack? (r : κ) (name : String) : Except StorageFault (Option Stack) := read? r (.stack name)

/-- All stacks, in the order of their names. -/
def allStacks (r : κ) : Except StorageFault (List Stack) := do
  let named ← readAll r Entry.stackMark .stack
  return named.map (·.2)

/-- The chainlet with a chain id. -/
def chainlet? (r : κ) (chainId : String) : Except StorageFault (Option Chainlet) :=
  read? r (.chainlet chainId)

/-- All chainlets, in the order of their chain ids. -/
def allChainlets (r : κ) : Except StorageFault (List Chainlet) := do
  let named ← readAll r Entry.chainletMark .chainlet
  return named.map (·.2)

/-- The number of chainlets, which is zero until it is first written. -/
def chainletCount (r : κ) : Except StorageFault UInt64 := do
  let count? ← read? r .chainletCount
  return count?.getD 0

/-- The parameters, which have to be there. -/
def params (r : κ) : Except StorageFault Params := do
  match ← read? r .params with
  | some params => return params
  | none => throw (.missing .params)

/-- The consumer that a chainlet waits as for its first validators, if it does. -/
def pendingInit? (r : κ) (chainId : String) : Except StorageFault (Option ConsumerId) :=
  read? r (.pendingInit chainId)

/-- The chainlets that wait for their first validators, and the consumers that they are, in the
order of the chain ids. -/
def pendingInits (r : κ) : Except StorageFault (List (String × ConsumerId)) :=
  readAll r Entry.pendingInitMark .pendingInit

/-- Whether a version of a stack can be launched or upgraded to. -/
def availability (r : κ) (stack version : String) : Except StorageFault Availability := do
  let stack? ← stack? r stack
  return match stack? with
    | some stack => stack.availability version
    | none => .notFound

end Readable

end Chainlets
