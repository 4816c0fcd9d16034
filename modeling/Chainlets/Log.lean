import Chainlets.Event
import Chainlets.Failure
import Chainlets.Text.Base64

/-!
# The log

What the module tells its operator. Events are logged as comma-separated values: the name of the
event, the time at which it was logged, and its fields. A commitment is shortened to the first
seven characters of its base64 form.

## Main definitions

* `LogEntry`, with `LogEntry.level` and `LogEntry.text`.
* `Event.fields` — the fields of an event's line after its name and the time.
-/

namespace Chainlets

/-! ### Lines of events -/

/-- The first seven characters of a commitment's base64 form. -/
def Commitment.short (commitment : Commitment) : String :=
  String.ofList ((Base64.encodeChars commitment.bytes).take 7)

namespace Event

/-- The name of an event. -/
def name : Event → String
  | .createStack .. => "CreateStack"
  | .addStackVersion .. => "AddStackVersion"
  | .disableStackVersion .. => "DisableStackVersion"
  | .launchChainlet .. => "LaunchChainlet"
  | .stopChainlet .. => "StopChainlet"
  | .startChainlet .. => "StartChainlet"
  | .upgradeChainlet .. => "UpgradeChainlet"
  | .scheduleUpgrade .. => "ScheduleUpgrade"
  | .completeUpgrade .. => "CompleteUpgrade"
  | .cancelUpgrade .. => "CancelUpgrade"
  | .requestCancelUpgrade .. => "RequestCancelUpgrade"
  | .ignorePacket .. => "IgnorePacket"
  | .registerConsumer .. => "RegisterConsumer"
  | .initConsumer .. => "InitConsumer"

/-- The fields of an event's line. -/
def fields : Event → List String
  | .createStack stack creator => [stack, creator]
  | .addStackVersion stack version isConsumer =>
    [stack, version, if isConsumer then "true" else "false"]
  | .disableStackVersion stack version => [stack, version]
  | .launchChainlet chainId stack version launcher feeDenom? =>
    [chainId, stack, version, launcher, feeDenom?.getD "service"]
  | .stopChainlet chainId => [chainId]
  | .startChainlet chainId => [chainId]
  | .upgradeChainlet chainId source target automatic =>
    [chainId, source, target, if automatic then "automatic" else "manual"]
  | .scheduleUpgrade chainId planName targetVersion targetHeight channel sequence commitment =>
    [chainId, planName, targetVersion, targetHeight.render, channel, s!"{sequence.number}",
      commitment.short]
  | .completeUpgrade chainId version height => [chainId, version, height.render]
  | .cancelUpgrade chainId targetVersion reason => [chainId, targetVersion, reason.name]
  | .requestCancelUpgrade chainId planName channel sequence commitment =>
    [chainId, planName, channel, s!"{sequence.number}", commitment.short]
  | .ignorePacket chainId planName reason => [chainId, planName, reason.message]
  | .registerConsumer chainId consumer => [chainId, consumer.text]
  | .initConsumer chainId consumer channel => [chainId, consumer.text, channel]

/-- The line of an event, given the text of the time at which it is logged. -/
def line (event : Event) (time : String) : String :=
  String.intercalate ", " (event.name :: time :: event.fields)

end Event

/-! ### Entries -/

/-- How much an entry matters. -/
inductive LogLevel where
  | debug
  | info
  | warn
deriving DecidableEq, Repr

/-- The name of a level. -/
def LogLevel.name : LogLevel → String
  | .debug => "DEBUG"
  | .info => "INFO"
  | .warn => "WARN"

/-- Something that the module tells its operator. -/
inductive LogEntry where
  /-- An event was committed. -/
  | event (e : Event)
  /-- A committed event had no listener. -/
  | noListener
  /-- The cached version tree was dropped. -/
  | treeInvalidated
  /-- A version tree was built from the stacks. -/
  | treeRebuilt
  /-- An execution failed, and what it wrote was discarded. -/
  | rolledBack (failure : Failure)
  /-- A packet was answered with an error. -/
  | packetRejected (sequence : Sequence) (channel : String) (failure : Failure)
  /-- A callback was not about the pending upgrade. -/
  | packetIgnored (chainId : String) (reason : IgnoreReason)
  /-- The deposit of a way to pay cannot be expressed. -/
  | depositOverflow (denom chainId : String)
  /-- A way to pay failed. -/
  | feeFailed (denom chainId reason : String)
  /-- The first validators of a consumer could not be sent. -/
  | initFailed (consumer : ConsumerId) (chainId reason : String)
  /-- The version of a chainlet is not a version. -/
  | upgradeSkipped (chainId : String) (cause : VersionError)
  /-- A chainlet could not be upgraded automatically. -/
  | upgradeFailed (chainId target : String) (failure : Failure)
  /-- A genesis state was written. -/
  | genesisWritten (stackCount chainletCount : Nat)
deriving DecidableEq, Repr

namespace LogEntry

/-- How much an entry matters. -/
def level : LogEntry → LogLevel
  | .event _ | .genesisWritten .. => .info
  | .packetRejected .. | .depositOverflow .. | .initFailed .. | .upgradeSkipped ..
  | .upgradeFailed .. => .warn
  | _ => .debug

/-- The text of an entry, given the text of the time at which it is logged. -/
def text (entry : LogEntry) (time : String) : String :=
  match entry with
  | .event e => e.line time
  | .noListener => "Event subscriber disconnected, dropping event"
  | .treeInvalidated => "Version tree cache invalidated"
  | .treeRebuilt => "Version tree rebuilt from the stack registry"
  | .rolledBack failure => s!"Execution failed and was rolled back: {failure.message}"
  | .packetRejected sequence channel failure =>
    s!"Rejecting packet {sequence.number} on {channel}: {failure.message}"
  | .packetIgnored chainId reason => s!"Ignoring packet for chainlet {chainId}: {reason.message}"
  | .depositOverflow denom chainId =>
    s!"Launch deposit in {denom} for chainlet {chainId} overflows, skipping fee option"
  | .feeFailed denom chainId reason =>
    s!"Fee option {denom} failed for chainlet {chainId}: {reason}"
  | .initFailed consumer chainId reason =>
    s!"Failed to send initial validator set packets to consumer {consumer.text} of chainlet "
      ++ s!"{chainId}: {reason}"
  | .upgradeSkipped chainId cause =>
    s!"Skipping automatic upgrade of chainlet {chainId}: {cause.message}"
  | .upgradeFailed chainId target failure =>
    s!"Failed to automatically upgrade chainlet {chainId} to {target}: {failure.message}"
  | .genesisWritten stackCount chainletCount =>
    s!"Initialized chainlet module with {stackCount} stacks and {chainletCount} chainlets"

/-- The line of an entry, given the text of the time at which it is logged. -/
def line (entry : LogEntry) (time : String) : String :=
  s!"{entry.level.name} {entry.text time}"

end LogEntry

end Chainlets
