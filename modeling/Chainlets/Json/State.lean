import Chainlets.Genesis.Basic
import Chainlets.Json.Record

/-!
# State records in JSON

The JSON forms of stacks, chainlets, parameters and genesis states: the names of their fields and
the order in which they are written.

## Main definitions

* Instances of `Json.Format` for the records of the state.
-/

namespace Chainlets.Json

instance : Format Coin where
  toJson coin := record [("denom", toJson coin.denom), ("amount", toJson coin.amount)]
  ofJson? j := do
    match ← fields? ["denom", "amount"] 0 j with
    | [denom, amount] => return { denom := ← required denom, amount := ← required amount }
    | _ => none

instance : Format StackFees where
  toJson fees :=
    record [("denom", toJson fees.denom), ("epoch_fee", toJson fees.epochFee),
      ("setup_fee", toJson fees.setupFee)]
  ofJson? j := do
    match ← fields? ["denom", "epoch_fee", "setup_fee"] 0 j with
    | [denom, epochFee, setupFee] =>
      return {
        denom := ← required denom
        epochFee := ← required epochFee
        setupFee := ← required setupFee }
    | _ => none

instance : Format StackVersion where
  toJson v :=
    record [("image", toJson v.image), ("version", toJson v.version),
      ("checksum", toJson v.checksum), ("enabled", toJson v.enabled),
      ("ccv_consumer", toJson v.isConsumer)]
  ofJson? j := do
    match ← fields? ["image", "version", "checksum", "enabled", "ccv_consumer"] 0 j with
    | [image, version, checksum, enabled, isConsumer] =>
      return {
        image := ← required image
        version := ← required version
        checksum := ← required checksum
        enabled := ← required enabled
        isConsumer := ← required isConsumer }
    | _ => none

instance : Format Stack where
  toJson stack :=
    record [("display_name", toJson stack.name), ("description", toJson stack.description),
      ("fees", toJson stack.fees), ("versions", toJson stack.versions)]
  ofJson? j := do
    match ← fields? ["display_name", "description", "fees", "versions"] 0 j with
    | [name, description, fees, versions] =>
      return {
        name := ← required name
        description := ← required description
        fees := ← required fees
        versions := ← required versions }
    | _ => none

/-- The status of a name. -/
def status? (name : String) : Option Status :=
  if name = "Online" then some .online else if name = "Offline" then some .offline else none

instance : Format Status where
  toJson
    | .online => text "Online"
    | .offline => text "Offline"
  ofJson?
    | .object [(key, .null)] => (Utf8.decode? key).bind status?
    | j => j.text?.bind status?

instance : Format ConsumerId where
  toJson id := toJson id.text
  ofJson? j := (ofJson? j).map ConsumerId.mk

instance : Format PendingUpgrade where
  toJson upgrade :=
    record [("target_version", toJson upgrade.targetVersion),
      ("target_height", toJson upgrade.targetHeight), ("channel_id", toJson upgrade.channel)]
  ofJson? j := do
    match ← fields? ["target_version", "target_height", "channel_id"] 0 j with
    | [targetVersion, targetHeight, channel] =>
      return {
        targetVersion := ← required targetVersion
        targetHeight := ← required targetHeight
        channel := ← required channel }
    | _ => none

/-- The names of the fields of a chainlet, in order. -/
def chainletFields : List String :=
  ["chain_id", "chainlet_name", "launcher", "maintainers", "stack_name", "stack_version", "status",
    "auto_upgrade", "is_ccv_consumer", "consumer_id", "spawn_time", "is_service_chainlet",
    "upgrade"]

instance : Format Chainlet where
  toJson c :=
    record <| chainletFields.zip
      [toJson c.chainId, toJson c.name, toJson c.launcher, toJson c.maintainers, toJson c.stack,
        toJson c.version, toJson c.status, toJson c.autoUpgrade, toJson c.isConsumer,
        toJson c.consumer?, toJson c.spawnTime, toJson c.isService, toJson c.upgrade?]
  ofJson? j := do
    match ← fields? chainletFields 0 j with
    | [chainId, name, launcher, maintainers, stack, version, status, autoUpgrade, isConsumer,
        consumer, spawnTime, isService, upgrade] =>
      return {
        chainId := ← required chainId
        name := ← required name
        launcher := ← required launcher
        maintainers := ← required maintainers
        stack := ← required stack
        version := ← required version
        status := ← required status
        autoUpgrade := ← required autoUpgrade
        isConsumer := ← required isConsumer
        consumer? := ← optional consumer
        spawnTime := ← required spawnTime
        isService := ← required isService
        upgrade? := ← optional upgrade }
    | _ => none

/-- The names of the parameters, in order. -/
def paramFields : List String :=
  ["chainlet_stack_protections", "max_chainlets", "automatic_chainlet_upgrades",
    "automatic_chainlet_upgrade_interval", "min_upgrade_height_delta",
    "upgrade_timeout_height_delta", "upgrade_timeout_secs", "consumer_unbonding_period_secs",
    "launch_deposit_epochs"]

instance : Format Params where
  toJson p :=
    record <| paramFields.zip
      [toJson p.stackProtections, toJson p.maxChainlets, toJson p.automaticUpgrades,
        toJson p.automaticUpgradeInterval, toJson p.minUpgradeHeightDelta,
        toJson p.timeoutHeightDelta, toJson p.timeoutSecs, toJson p.unbondingSecs,
        toJson p.depositEpochs]
  ofJson? j := do
    match ← fields? paramFields 0 j with
    | [stackProtections, maxChainlets, automaticUpgrades, automaticUpgradeInterval,
        minUpgradeHeightDelta, timeoutHeightDelta, timeoutSecs, unbondingSecs, depositEpochs] =>
      return {
        stackProtections := ← required stackProtections
        maxChainlets := ← required maxChainlets
        automaticUpgrades := ← required automaticUpgrades
        automaticUpgradeInterval := ← required automaticUpgradeInterval
        minUpgradeHeightDelta := ← required minUpgradeHeightDelta
        timeoutHeightDelta := ← required timeoutHeightDelta
        timeoutSecs := ← required timeoutSecs
        unbondingSecs := ← required unbondingSecs
        depositEpochs := ← required depositEpochs }
    | _ => none

instance : Format Genesis where
  toJson g :=
    record [("params", toJson g.params), ("stacks", toJson g.catalog),
      ("chainlets", toJson g.chainlets)]
  ofJson? j := do
    match ← fields? ["params", "stacks", "chainlets"] 0 j with
    | [params, catalog, chainlets] =>
      return {
        params := ← required params
        catalog := ← required catalog
        chainlets := ← required chainlets }
    | _ => none

end Chainlets.Json
