import Chainlets.Coin

/-!
# Stacks

A stack is a named, versioned software image that chainlets run. Versions are never removed: a
version that is disabled stays on record, but cannot be launched or upgraded to any more.

## Main definitions

* `StackFees`, `StackVersion`, `Stack`.
* `Stack.version?` and `Stack.availability` — looking a version up.
* `StackVersion.CollidesWith` — when two versions may not stand in one stack.
-/

namespace Chainlets

/-- One way to pay for a chainlet: a denomination and what is charged in it. -/
structure StackFees where
  /-- The denomination of both fees. -/
  denom : String
  /-- The fee for an epoch. -/
  epochFee : Amount
  /-- The fee for a launch. -/
  setupFee : Amount
deriving DecidableEq, Inhabited

namespace StackFees

/-- The fee for an epoch. -/
def epochCoin (fees : StackFees) : Coin := ⟨fees.denom, fees.epochFee⟩

/-- The fee for a launch. -/
def setupCoin (fees : StackFees) : Coin := ⟨fees.denom, fees.setupFee⟩

end StackFees

/-- A version of a stack. -/
structure StackVersion where
  /-- The container image that the nodes run. -/
  image : String
  /-- The version text. -/
  version : String
  /-- The checksum of the image. -/
  checksum : String
  /-- Whether the version can be launched and upgraded to. -/
  enabled : Bool
  /-- Whether chainlets on this version consume the validator set of the parent chain. -/
  isConsumer : Bool
deriving DecidableEq, Inhabited

/-- Whether two versions share an image, a version text or a checksum. -/
def StackVersion.CollidesWith (v w : StackVersion) : Prop :=
  v.image = w.image ∨ v.version = w.version ∨ v.checksum = w.checksum

instance (v w : StackVersion) : Decidable (v.CollidesWith w) :=
  inferInstanceAs (Decidable (_ ∨ _ ∨ _))

/-- A named, versioned software image. -/
structure Stack where
  /-- The name, by which stacks are told apart. -/
  name : String
  /-- What the stack is. -/
  description : String
  /-- The ways to pay for a chainlet, in the order in which they are tried. -/
  fees : List StackFees
  /-- All versions ever added, in the order in which they were. -/
  versions : List StackVersion
deriving DecidableEq, Inhabited

/-- Whether a version of a stack can be launched or upgraded to. -/
inductive Availability where
  | enabled
  | disabled
  | notFound
deriving DecidableEq, Repr

/-- The name of an availability. -/
def Availability.name : Availability → String
  | .enabled => "Enabled"
  | .disabled => "Disabled"
  | .notFound => "NotFound"

namespace Stack

/-- The version with a version text. -/
def version? (stack : Stack) (version : String) : Option StackVersion :=
  stack.versions.find? fun v => v.version = version

/-- The version with a version text, if it is enabled. -/
def enabled? (stack : Stack) (version : String) : Option StackVersion :=
  (stack.version? version).filter (·.enabled)

/-- Whether a version can be launched or upgraded to. -/
def availability (stack : Stack) (version : String) : Availability :=
  match stack.version? version with
  | some v => if v.enabled then .enabled else .disabled
  | none => .notFound

/-- The first version that a new one may not stand beside. -/
def colliding? (stack : Stack) (candidate : StackVersion) : Option StackVersion :=
  stack.versions.find? fun v => v.CollidesWith candidate

/-- The enabled versions. -/
def enabledVersions (stack : Stack) : List StackVersion := stack.versions.filter (·.enabled)

/-- The stack with one more version. -/
def addVersion (stack : Stack) (v : StackVersion) : Stack :=
  { stack with versions := stack.versions ++ [v] }

/-- Versions of which the first with a version text is disabled. -/
def disableFirst (version : String) : List StackVersion → List StackVersion
  | [] => []
  | v :: rest =>
    if v.version = version then { v with enabled := false } :: rest
    else v :: disableFirst version rest

/-- The stack with the version with a version text disabled. -/
def disable (stack : Stack) (version : String) : Stack :=
  { stack with versions := disableFirst version stack.versions }

end Stack

end Chainlets
