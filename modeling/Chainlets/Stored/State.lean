import Chainlets.Genesis.Basic
import Chainlets.Stored.Basic

/-!
# Stored state records

The stored forms of stacks, chainlets and parameters: the order of their fields. A record can be
stored when its texts and lists can.

## Main definitions

* Instances of `Stored.Format` for the records of the state.
-/

namespace Chainlets.Stored

instance : Format Coin where
  encode coin := encode coin.denom ++ encode coin.amount
  reader := return { denom := ← reader, amount := ← reader }
  fits coin := fits coin.denom

instance : Format StackFees where
  encode fees := encode fees.denom ++ encode fees.epochFee ++ encode fees.setupFee
  reader := return { denom := ← reader, epochFee := ← reader, setupFee := ← reader }
  fits fees := fits fees.denom

instance : Format StackVersion where
  encode v :=
    encode v.image ++ encode v.version ++ encode v.checksum ++ encode v.enabled ++
      encode v.isConsumer
  reader := return {
    image := ← reader
    version := ← reader
    checksum := ← reader
    enabled := ← reader
    isConsumer := ← reader }
  fits v := fits v.image && fits v.version && fits v.checksum

instance : Format Stack where
  encode stack :=
    encode stack.name ++ encode stack.description ++ encode stack.fees ++ encode stack.versions
  reader := return {
    name := ← reader
    description := ← reader
    fees := ← reader
    versions := ← reader }
  fits stack :=
    fits stack.name && fits stack.description && fits stack.fees && fits stack.versions

instance : Format Status where
  encode
    | .online => [0]
    | .offline => [1]
  reader := do
    let b ← byte
    if b = 0 then return .online
    else if b = 1 then return .offline
    else throw (.badAlternative b)
  fits _ := true

instance : Format ConsumerId where
  encode id := encode id.text
  reader := ConsumerId.mk <$> reader
  fits id := fits id.text

instance : Format PendingUpgrade where
  encode upgrade :=
    encode upgrade.targetVersion ++ encode upgrade.targetHeight ++ encode upgrade.channel
  reader := return {
    targetVersion := ← reader
    targetHeight := ← reader
    channel := ← reader }
  fits upgrade := fits upgrade.targetVersion && fits upgrade.channel

instance : Format Chainlet where
  encode c :=
    encode c.chainId ++ encode c.name ++ encode c.launcher ++ encode c.maintainers ++
      encode c.stack ++ encode c.version ++ encode c.status ++ encode c.autoUpgrade ++
      encode c.isConsumer ++ encode c.consumer? ++ encode c.spawnTime ++ encode c.isService ++
      encode c.upgrade?
  reader := return {
    chainId := ← reader
    name := ← reader
    launcher := ← reader
    maintainers := ← reader
    stack := ← reader
    version := ← reader
    status := ← reader
    autoUpgrade := ← reader
    isConsumer := ← reader
    consumer? := ← reader
    spawnTime := ← reader
    isService := ← reader
    upgrade? := ← reader }
  fits c :=
    fits c.chainId && fits c.name && fits c.launcher && fits c.maintainers && fits c.stack &&
      fits c.version && fits c.consumer? && fits c.upgrade?

instance : Format Params where
  encode p :=
    encode p.stackProtections ++ encode p.maxChainlets ++ encode p.automaticUpgrades ++
      encode p.automaticUpgradeInterval ++ encode p.minUpgradeHeightDelta ++
      encode p.timeoutHeightDelta ++ encode p.timeoutSecs ++ encode p.unbondingSecs ++
      encode p.depositEpochs
  reader := return {
    stackProtections := ← reader
    maxChainlets := ← reader
    automaticUpgrades := ← reader
    automaticUpgradeInterval := ← reader
    minUpgradeHeightDelta := ← reader
    timeoutHeightDelta := ← reader
    timeoutSecs := ← reader
    unbondingSecs := ← reader
    depositEpochs := ← reader }
  fits _ := true

end Chainlets.Stored
