import Chainlets.Chainlet
import Chainlets.Params
import Chainlets.Stack

/-!
# Genesis states

The state that a chain starts from, and that a running chain exports.

## Main definitions

* `Genesis`.
-/

namespace Chainlets

/-- The state that a chain starts from. -/
structure Genesis where
  /-- The parameters. -/
  params : Params
  /-- The stacks. -/
  catalog : List Stack
  /-- The chainlets. -/
  chainlets : List Chainlet
deriving DecidableEq, Inhabited

end Chainlets
