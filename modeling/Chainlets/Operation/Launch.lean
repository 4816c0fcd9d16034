import Chainlets.Message
import Chainlets.Operation.Consumers

/-!
# Launching chainlets

A launch is paid for with one of the stack's fees, unless an admin launches a service chainlet.
Fees are tried in the order in which the stack lists them: a deposit of some epoch fees goes into
the chainlet's escrow account, and then the setup fee is billed. The first for which both succeed
pays for the launch; if there is none, the launch fails.

## Main definitions

* `Operation.chargeLaunch` — find a way to pay.
* `Operation.launch`, `Operation.setStatus`, `Operation.applyVersion`.
-/

namespace Chainlets.Operation

open Execution

variable {ω : Type}

/-- What a bill for a setup fee says. -/
def setupFeeMemo : String := "setup fee"

/-- Charge one way to pay: the deposit, and then the setup fee. -/
def chargeFees (chainlet : Chainlet) (fees : StackFees) (deposit : Coin) :
    Execution ω (Except String Unit) := do
  match ← attempt fun parent => parent.openEscrow chainlet.launcher chainlet.chainId deposit with
  | .error reason => return .error reason
  | .ok () => attempt fun parent => parent.bill fees.setupCoin chainlet setupFeeMemo

/-- Try ways to pay in order. The denomination of the first that works is returned. -/
def tryFees (chainlet : Chainlet) (epochs : UInt64) : List StackFees →
    Execution ω (Option String)
  | [] => return none
  | fees :: rest =>
    match fees.epochCoin.times? epochs with
    | none => do
      log (.depositOverflow fees.denom chainlet.chainId)
      tryFees chainlet epochs rest
    | some deposit => do
      match ← chargeFees chainlet fees deposit with
      | .ok () => return some fees.denom
      | .error reason =>
        log (.feeFailed fees.denom chainlet.chainId reason)
        tryFees chainlet epochs rest

/-- Find a way to pay for a launch. The denomination that was paid in is returned. -/
def chargeLaunch (params : Params) (stack : Stack) (chainlet : Chainlet) :
    Execution ω String := do
  match ← tryFees chainlet params.depositEpochs stack.fees with
  | some denom => return denom
  | none => fail (.billingFailed chainlet.chainId stack.fees.length)

/-- Require the sender of a launch to be an admin, where only admins may ask for it. -/
def requireLauncher (msg : Launch) : Execution ω Unit := do
  let isAdmin ← ask fun parent => parent.isAdmin msg.creator
  if msg.isService && !isAdmin then fail (.unauthorized .launchService)
  if !isAdmin && !ChainId.isSelfService msg.chainId then
    fail (.invalid (.notSelfService msg.chainId))

/-- Launch a chainlet. -/
def launch (msg : Launch) : Execution ω Unit := do
  let params ← params
  requireLauncher msg
  let count ← Readable.chainletCount (← view)
  if params.maxChainlets ≤ count then fail (.maxChainletsReached params.maxChainlets)
  if (← chainlet? msg.chainId).isSome then fail (.alreadyExists (.chainlet msg.chainId))
  let stack ← stack msg.stack
  let version ← enabledVersion msg.stack stack msg.version
  let chainlet : Chainlet := {
    chainId := msg.chainId
    name := msg.name
    launcher := msg.creator
    maintainers := msg.maintainers
    stack := msg.stack
    version := msg.version
    status := .online
    autoUpgrade := msg.autoUpgrade
    isConsumer := version.isConsumer
    consumer? := none
    spawnTime := (← context).time
    isService := msg.isService
    upgrade? := none }
  let feeDenom? ←
    if msg.isService then pure none else some <$> chargeLaunch params stack chainlet
  let consumer? ←
    if version.isConsumer then
      some <$> registerConsumer chainlet.chainId chainlet.spawnTime params.unbondingPeriod
    else pure none
  putChainlet { chainlet with consumer? }
  putChainletCount (count + 1)
  emit (.launchChainlet msg.chainId msg.stack msg.version msg.creator feeDenom?)

/-- Set the status of a chainlet. Whether it changed is returned. -/
def setStatus (chainId : String) (status : Status) : Execution ω Bool := do
  let chainlet ← chainlet chainId
  if chainlet.status = status then return false
  else
    putChainlet { chainlet with status }
    emit <| match status with
      | .online => .startChainlet chainlet.chainId
      | .offline => .stopChainlet chainlet.chainId
    return true

/-- Move a chainlet to a version without asking it. -/
def applyVersion (chainlet : Chainlet) (version : String) (automatic : Bool) :
    Execution ω Unit := do
  putChainlet { chainlet with version }
  emit (.upgradeChainlet chainlet.chainId chainlet.version version automatic)

end Chainlets.Operation
