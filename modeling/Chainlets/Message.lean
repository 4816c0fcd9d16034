import Chainlets.ChainId
import Chainlets.Failure
import Chainlets.Text.Blank

/-!
# Messages

What users and maintainers ask of the module. A message is first checked on its own, without
reading any state; whether its sender is who the message says is the host's concern.

## Main definitions

* `CreateStack`, `AddVersion`, `DisableVersion`, `Launch`, `RequestUpgrade`, `CancelUpgrade`.
* `Message`, with `Message.check`.
* `Confirmation` — what a chainlet's confirmation packet asks for, with `Confirmation.check`.
-/

namespace Chainlets

/-- Create a stack with its first version. -/
structure CreateStack where
  creator : String
  name : String
  description : String
  image : String
  version : String
  checksum : String
  fees : List StackFees
  isConsumer : Bool
deriving DecidableEq, Inhabited

/-- Add a version to a stack. -/
structure AddVersion where
  creator : String
  name : String
  image : String
  version : String
  checksum : String
  isConsumer : Bool
deriving DecidableEq, Inhabited

/-- Disable a version of a stack. -/
structure DisableVersion where
  creator : String
  name : String
  version : String
deriving DecidableEq, Inhabited

/-- Launch a chainlet. -/
structure Launch where
  creator : String
  maintainers : List String
  stack : String
  version : String
  chainId : String
  name : String
  autoUpgrade : Bool
  /-- Whether the chainlet is exempt from fees, which only admins may ask for. -/
  isService : Bool
deriving DecidableEq, Inhabited

/-- Move a chainlet to another version of its stack. -/
structure RequestUpgrade where
  creator : String
  chainId : String
  version : String
  /-- The number of blocks to wait on top of the least number. -/
  heightDelta : UInt64
  /-- The channel over which a breaking upgrade is negotiated. -/
  channel : String
deriving DecidableEq, Inhabited

/-- Give up a chainlet's breaking upgrade. -/
structure CancelUpgrade where
  creator : String
  chainId : String
deriving DecidableEq, Inhabited

/-- A chainlet's report that it has reached the height right before its upgrade. -/
structure Confirmation where
  chainId : String
  height : UInt64
  /-- The plan name of the upgrade, or the empty text for whichever upgrade is under way. -/
  plan : String
  port : String
  channel : String
deriving DecidableEq, Inhabited

/-- What a user asks for. -/
inductive Message where
  | createStack (msg : CreateStack)
  | addVersion (msg : AddVersion)
  | disableVersion (msg : DisableVersion)
  | launch (msg : Launch)
  | requestUpgrade (msg : RequestUpgrade)
  | cancelUpgrade (msg : CancelUpgrade)
deriving DecidableEq

/-! ### Checks -/

/-- Require a text not to be blank. -/
def requireNonBlank (field value : String) : Except Failure Unit :=
  if Blank.isBlankText value then .error (.invalid (.blank field)) else .ok ()

/-- Require a chain id to be in the general format. -/
def requireChainId (id : String) : Except Failure Unit :=
  if ChainId.isValid id then .ok () else .error (.invalid (.badChainId id))

/-- Require a text to be a version. -/
def requireVersion (text : String) : Except Failure Unit :=
  match Version.parse text with
  | .ok _ => .ok ()
  | .error cause => .error (.badVersion cause)

/-- Require texts to be distinct and none of them blank, given those seen before. -/
def requireDistinct (field : String) (duplicate : String → Invalid) (seen : List String) :
    List String → Except Failure Unit
  | [] => .ok ()
  | text :: rest => do
    requireNonBlank field text
    if text ∈ seen then throw (.invalid (duplicate text))
    requireDistinct field duplicate (text :: seen) rest

/-- Require at least one way to pay, and no denomination twice. -/
def requireFees (fees : List StackFees) : Except Failure Unit := do
  if fees.isEmpty then throw (.invalid .noFees)
  requireDistinct "fee denomination" .duplicateDenom [] (fees.map (·.denom))

/-- Require at least one maintainer, and none twice. -/
def requireMaintainers (maintainers : List String) : Except Failure Unit := do
  if maintainers.isEmpty then throw (.invalid .noMaintainer)
  requireDistinct "maintainer" .duplicateMaintainer [] maintainers

/-- What is checked of a stack's creation. -/
def CreateStack.check (msg : CreateStack) : Except Failure Unit := do
  requireNonBlank "creator" msg.creator
  requireNonBlank "display name" msg.name
  requireNonBlank "image" msg.image
  requireNonBlank "checksum" msg.checksum
  requireVersion msg.version
  requireFees msg.fees

/-- What is checked of a version's addition. -/
def AddVersion.check (msg : AddVersion) : Except Failure Unit := do
  requireNonBlank "creator" msg.creator
  requireNonBlank "display name" msg.name
  requireNonBlank "image" msg.image
  requireNonBlank "checksum" msg.checksum
  requireVersion msg.version

/-- What is checked of a version's disabling. -/
def DisableVersion.check (msg : DisableVersion) : Except Failure Unit := do
  requireNonBlank "creator" msg.creator
  requireNonBlank "display name" msg.name
  requireVersion msg.version

/-- What is checked of a launch. -/
def Launch.check (msg : Launch) : Except Failure Unit := do
  requireNonBlank "creator" msg.creator
  requireNonBlank "stack name" msg.stack
  requireNonBlank "chainlet name" msg.name
  requireVersion msg.version
  requireChainId msg.chainId
  requireMaintainers msg.maintainers

/-- What is checked of an upgrade. -/
def RequestUpgrade.check (msg : RequestUpgrade) : Except Failure Unit := do
  requireNonBlank "creator" msg.creator
  requireChainId msg.chainId
  requireVersion msg.version

/-- What is checked of a cancellation. -/
def CancelUpgrade.check (msg : CancelUpgrade) : Except Failure Unit := do
  requireNonBlank "creator" msg.creator
  requireChainId msg.chainId

/-- What is checked of a confirmation. -/
def Confirmation.check (msg : Confirmation) : Except Failure Unit := do
  requireChainId msg.chainId
  requireNonBlank "channel" msg.channel

/-- What is checked of a message before any state is read. -/
def Message.check : Message → Except Failure Unit
  | .createStack msg => msg.check
  | .addVersion msg => msg.check
  | .disableVersion msg => msg.check
  | .launch msg => msg.check
  | .requestUpgrade msg => msg.check
  | .cancelUpgrade msg => msg.check

end Chainlets
