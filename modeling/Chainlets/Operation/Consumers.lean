import Chainlets.Execution

/-!
# Chainlets as consumers

A chainlet that consumes the parent chain's validator set is registered with the subsystem that
lends validators. It cannot be sent validators until it runs and a channel to it is open, which may
take many blocks. So registration leaves a mark, and at the beginning of every block the queued
changes are sent to every marked consumer that is ready for them.

## Main definitions

* `Operation.registerConsumer` — register a chainlet and leave the mark.
* `Operation.initConsumers` — send the first validators to those that are ready.
-/

namespace Chainlets.Operation

open Execution

variable {ω : Type}

/-- Register a chainlet as a consumer, queue the current validator set for it, and mark it. -/
def registerConsumer (chainId : String) (spawnTime : Time) (unbonding : Duration) :
    Execution ω ConsumerId := do
  let consumer ← call fun parent => parent.createConsumer chainId spawnTime unbonding
  let id ← ask Parent.validatorSetId
  order fun parent => parent.queueChange consumer (.empty id)
  order Parent.advanceValidatorSetId
  putPendingInit chainId consumer
  emit (.registerConsumer chainId consumer)
  return consumer

/-- The chainlet as it is once it runs a version: registered as a consumer, if the version needs it
and it is not one yet. -/
def registerForVersion (chainlet : Chainlet) (target : StackVersion) :
    Execution ω Chainlet := do
  if chainlet.isConsumer || !target.isConsumer then return chainlet
  else
    let params ← params
    let spawnTime := (← context).time
    let consumer ← registerConsumer chainlet.chainId spawnTime params.unbondingPeriod
    return { chainlet with isConsumer := true, consumer? := some consumer }

/-- Send the first validators to a marked consumer, and take its mark away. One that is not
launched, has no channel, or cannot be sent them keeps its mark and is tried again. -/
def initConsumer (chainId : String) (consumer : ConsumerId) : Execution ω Unit := do
  if (← ask fun parent => parent.consumerPhase consumer) = .launched then
    match ← ask fun parent => parent.consumerChannel? consumer with
    | none => return
    | some channel =>
      match ← attempt fun parent => parent.sendChanges consumer channel with
      | .error reason => log (.initFailed consumer chainId reason)
      | .ok () =>
        drop (.pendingInit chainId)
        emit (.initConsumer chainId consumer channel)

/-- Send the first validators to every marked consumer that is ready for them. -/
def initConsumers : Execution ω Unit := do
  let pending ← Readable.pendingInits (← view)
  pending.forM fun (chainId, consumer) => initConsumer chainId consumer

end Chainlets.Operation
