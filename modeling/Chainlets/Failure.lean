import Chainlets.Channel
import Chainlets.Stack
import Chainlets.Store.Entry
import Chainlets.Version.Series

/-!
# Failures

Every way in which an operation of the module can fail, by its cause. A failure has a wording, and
a category that tells the host how to surface it. A failure of integrity means that the version
tree disagrees with the stacks; it must stop the host.

## Main definitions

* `Failure`, with `Failure.message`, `Failure.category` and `Failure.isFatal`.
* `Invalid`, `Conflict`, `Missing`, `Forbidden`, `BadPacket` — the finer causes.
-/

namespace Chainlets

/-- What is wrong with a request on its own. -/
inductive Invalid where
  /-- A field is blank. -/
  | blank (field : String)
  /-- A chain id is not in the general format. -/
  | badChainId (id : String)
  /-- A chain id is not in the self-service format. -/
  | notSelfService (id : String)
  /-- A chainlet would have no maintainer. -/
  | noMaintainer
  /-- A maintainer is named twice. -/
  | duplicateMaintainer (address : String)
  /-- A stack would have no fees. -/
  | noFees
  /-- Two fees have the same denomination. -/
  | duplicateDenom (denom : String)
  /-- A chainlet would be moved to the version that it runs. -/
  | sameVersion (chainId version : String)
  /-- Two stacks of a genesis have the same name. -/
  | duplicateStack (name : String)
  /-- Two versions of a stack of a genesis collide. -/
  | collision (stack version : String)
  /-- A genesis has more chainlets than its parameters allow. -/
  | tooManyChainlets (count : Nat) (max : UInt64)
  /-- Two chainlets of a genesis have the same chain id. -/
  | duplicateChainlet (chainId : String)
  /-- A chainlet of a genesis runs a version that is not there. -/
  | unknownVersion (chainId version stack : String)
  /-- The host gave a group of operations up. -/
  | abandoned
deriving DecidableEq, Repr

/-- The wording of what is wrong with a request. -/
def Invalid.message : Invalid → String
  | .blank field => s!"{field} must not be empty"
  | .badChainId id => s!"invalid chain id {Quoted.text id}"
  | .notSelfService id =>
    s!"chain id {id} is not in the self-service format <name>_<number>-<revision>"
  | .noMaintainer => "at least one maintainer is required"
  | .duplicateMaintainer address => s!"duplicate maintainer {address}"
  | .noFees => "at least one fee option is required"
  | .duplicateDenom denom => s!"duplicate fee denomination {denom}"
  | .sameVersion chainId version => s!"chainlet {chainId} already runs version {version}"
  | .duplicateStack name => s!"duplicate stack {name}"
  | .collision stack version =>
    s!"version {version} of stack {stack} collides with an earlier version"
  | .tooManyChainlets count max => s!"{count} chainlets exceed the maximum of {max}"
  | .duplicateChainlet chainId => s!"duplicate chainlet {chainId}"
  | .unknownVersion chainId version stack =>
    s!"chainlet {chainId} runs unknown version {version} of stack {stack}"
  | .abandoned => "abandoned"

/-- Something that a request would create a second time. -/
inductive Existing where
  | stack (name : String)
  | chainlet (chainId : String)
  /-- A version of a stack with which the new one collides. -/
  | colliding (version stack : String)
deriving DecidableEq, Repr

/-- The name of something that exists. -/
def Existing.describe : Existing → String
  | .stack name => s!"stack {name}"
  | .chainlet chainId => s!"chainlet {chainId}"
  | .colliding version name => s!"version colliding with {version} of stack {name}"

/-- Something that a request names and that is not there. -/
inductive Missing where
  | stack (name : String)
  | chainlet (chainId : String)
  | stackVersion (version stack : String)
deriving DecidableEq, Repr

/-- The name of something that is not there. -/
def Missing.describe : Missing → String
  | .stack name => s!"stack {name}"
  | .chainlet chainId => s!"chainlet {chainId}"
  | .stackVersion version name => s!"version {version} of stack {name}"

/-- Something that a sender may not do. -/
inductive Forbidden where
  /-- Create or change a stack. -/
  | manageStacks (address : String)
  /-- Launch a chainlet without fees. -/
  | launchService
  /-- Upgrade a chainlet. -/
  | maintain (address chainId : String)
deriving DecidableEq, Repr

/-- The wording of what a sender may not do. -/
def Forbidden.message : Forbidden → String
  | .manageStacks address => s!"{address} may not manage stacks"
  | .launchService => "only admins may launch service chainlets"
  | .maintain address chainId => s!"{address} is not a maintainer of chainlet {chainId}"

/-- What is wrong with a packet or an acknowledgement. -/
inductive BadPacket where
  /-- Its bytes are not in the wire format. -/
  | undecodable
  /-- A chainlet sent a packet that only the parent chain sends. -/
  | notConfirmation (chainId : String)
  /-- A confirmation, which the parent chain never sends, was acknowledged. -/
  | acknowledgedConfirmation
  /-- A confirmation, which the parent chain never sends, timed out. -/
  | timedOutConfirmation
deriving DecidableEq, Repr

/-- The wording of what is wrong with a packet. -/
def BadPacket.message : BadPacket → String
  | .undecodable => "not in the wire format"
  | .notConfirmation chainId =>
    s!"chainlets may only send confirm-upgrade packets, received a packet for {chainId}"
  | .acknowledgedConfirmation => "received an acknowledgement for a confirm-upgrade packet"
  | .timedOutConfirmation => "received a timeout for a confirm-upgrade packet"

/-- Why an operation failed. -/
inductive Failure where
  | invalid (cause : Invalid)
  | badVersion (cause : VersionError)
  | alreadyExists (what : Existing)
  | notFound (what : Missing)
  | unauthorized (what : Forbidden)
  | upgradeAlreadyPending (chainId : String)
  | noPendingUpgrade (chainId : String)
  | versionUnavailable (stack version : String) (availability : Availability)
  | maxChainletsReached (max : UInt64)
  | consumerNotRegistered (chainId : String)
  | breakingUpgradeRequiresConsumer (chainId : String)
  | billingFailed (chainId : String) (attempts : Nat)
  | channel (cause : ChannelFault)
  | badPacket (cause : BadPacket)
  /-- The version tree names a version of a stack that is not enabled. -/
  | treeOutOfSync (stack version : String)
  /-- A subsystem of the parent chain failed, for a reason of its own. -/
  | collaborator (reason : String)
  | storage (cause : StorageFault)
deriving DecidableEq, Repr

/-- What kind of failure a failure is. -/
inductive Category where
  /-- The request is malformed. -/
  | validation
  /-- The request conflicts with the state. -/
  | conflict
  /-- The sender lacks a right. -/
  | authorization
  /-- A packet came over a channel that does not lead to its chainlet. -/
  | verification
  /-- Something that the request names is not there. -/
  | notFound
  /-- Derived state disagrees with stored state. -/
  | integrity
  /-- No fee could be charged. -/
  | billing
  /-- The store or a subsystem failed. -/
  | internal
deriving DecidableEq, Repr

namespace Failure

/-- The wording of a failure. -/
def message : Failure → String
  | .invalid cause => s!"invalid message: {cause.message}"
  | .badVersion cause => cause.message
  | .alreadyExists what => s!"{what.describe} already exists"
  | .notFound what => s!"{what.describe} not found"
  | .unauthorized what => s!"unauthorized: {what.message}"
  | .upgradeAlreadyPending chainId => s!"chainlet {chainId} already has a pending upgrade"
  | .noPendingUpgrade chainId => s!"chainlet {chainId} has no pending upgrade"
  | .versionUnavailable stack version availability =>
    s!"version {version} of stack {stack} is not available ({availability.name})"
  | .maxChainletsReached max => s!"cannot launch more than {max} chainlets"
  | .consumerNotRegistered chainId => s!"chainlet {chainId} is not registered as a consumer"
  | .breakingUpgradeRequiresConsumer chainId =>
    s!"breaking upgrades of chainlet {chainId} require it to be a consumer chain"
  | .billingFailed chainId attempts =>
    s!"could not bill chainlet {chainId} with any of its {attempts} fee options"
  | .channel cause => cause.message
  | .badPacket cause => s!"malformed packet: {cause.message}"
  | .treeOutOfSync stack version =>
    s!"integrity violation: version tree names version {version} of stack {stack}, which the stack "
      ++ "registry does not have enabled"
  | .collaborator reason => s!"collaborator failed: {reason}"
  | .storage cause => cause.message

/-- The category of a failure. -/
def category : Failure → Category
  | .invalid _ | .badVersion _ | .badPacket _ => .validation
  | .alreadyExists _ | .upgradeAlreadyPending _ | .noPendingUpgrade _ | .versionUnavailable ..
  | .maxChainletsReached _ | .consumerNotRegistered _ | .breakingUpgradeRequiresConsumer _ =>
    .conflict
  | .unauthorized _ => .authorization
  | .channel _ => .verification
  | .notFound _ => .notFound
  | .treeOutOfSync .. => .integrity
  | .billingFailed .. => .billing
  | .collaborator _ | .storage _ => .internal

/-- Whether the host has to stop. -/
def isFatal (failure : Failure) : Bool := failure.category = .integrity

end Failure

end Chainlets
