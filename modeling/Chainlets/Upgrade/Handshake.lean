import Chainlets.Chainlet
import Chainlets.Version.Series

/-!
# The upgrade handshake

A breaking upgrade is pending on a chainlet from the moment its packet is sent until the chainlet
confirms it or it is given up. What a callback does follows from the pending upgrade, the version
that the chainlet runs, and the plan name that the callback carries:

```
            requested                   confirmed
  nothing ─────────────► upgrade ──────────────────► nothing, on the target version
                            │
                            │ rejected, timed out, cancelled
                            └──────────────────────► nothing, on the old version
```

A callback with the plan name of another upgrade, or with nothing pending, is about some other
upgrade, and is ignored. The functions of this module neither read nor write any state, and assume
that the callback came over a channel that leads to the chainlet.

## Main definitions

* `Handshake.Transition` — what a callback does to a chainlet.
* `Handshake.request`, `Handshake.cancelRequest` — what maintainers ask for.
* `Handshake.createAcknowledged`, `Handshake.createTimedOut`, `Handshake.confirmed`,
  `Handshake.cancelAcknowledged`, `Handshake.cancelTimedOut` — the callbacks.
-/

namespace Chainlets

/-- Why an upgrade was given up. -/
inductive CancelReason where
  /-- The chainlet rejected it. -/
  | rejected
  /-- The packet that schedules it timed out. -/
  | timedOut
  /-- The chainlet agreed to its cancellation. -/
  | cancelled
deriving DecidableEq, Repr

/-- The name of a reason. -/
def CancelReason.name : CancelReason → String
  | .rejected => "Rejected"
  | .timedOut => "TimedOut"
  | .cancelled => "Cancelled"

/-- Why a callback was ignored. -/
inductive IgnoreReason where
  /-- No upgrade is pending. -/
  | nothingPending (plan : String)
  /-- The pending upgrade has another plan name. -/
  | otherPlan (plan pending : String)
  /-- The pending upgrade has another plan name than a confirmation. -/
  | otherConfirmation (plan pending : String)
deriving DecidableEq, Repr

/-- The wording of a reason. -/
def IgnoreReason.message : IgnoreReason → String
  | .nothingPending plan => s!"no upgrade pending for plan {plan}"
  | .otherPlan plan pending => s!"packet for plan {plan}, pending plan is {pending}"
  | .otherConfirmation plan pending => s!"confirmation for plan {plan}, pending plan is {pending}"

namespace Handshake

/-- What a callback does to a chainlet. -/
inductive Transition where
  /-- Nothing, though the callback is about the pending upgrade. -/
  | stay
  /-- Nothing, because the callback is about another upgrade. -/
  | ignore (reason : IgnoreReason)
  /-- The pending upgrade is given up. -/
  | cancel (upgrade : PendingUpgrade) (reason : CancelReason)
  /-- The chainlet runs the target version of the pending upgrade. -/
  | complete (upgrade : PendingUpgrade)
deriving DecidableEq, Repr

/-- Why a step of the handshake is refused. -/
inductive Refusal where
  | alreadyPending
  | notPending
  | badVersion (cause : VersionError)
deriving DecidableEq, Repr

/-- The wording of a refusal. -/
def Refusal.message : Refusal → String
  | .alreadyPending => "an upgrade is already pending"
  | .notPending => "no upgrade is pending"
  | .badVersion cause => cause.message

/-! ### Requests -/

/-- What is pending after a request for an upgrade. -/
def request (pending : Option PendingUpgrade) (upgrade : PendingUpgrade) :
    Except Refusal (Option PendingUpgrade) :=
  match pending with
  | none => .ok (some upgrade)
  | some _ => .error .alreadyPending

/-- The upgrade that a request for cancellation is about. It stays pending until the chainlet
agrees. -/
def cancelRequest (pending : Option PendingUpgrade) : Except Refusal PendingUpgrade :=
  match pending with
  | none => .error .notPending
  | some upgrade => .ok upgrade

/-! ### Callbacks -/

/-- The plan name of a pending upgrade of a chainlet on a version. -/
def expectedPlan (current : String) (upgrade : PendingUpgrade) : Except Refusal String :=
  (Upgrade.planName current upgrade.targetVersion).mapError .badVersion

/-- Act on the pending upgrade if a plan name is its own, and ignore the callback otherwise. -/
def onMatch (pending : Option PendingUpgrade) (current plan : String)
    (act : PendingUpgrade → Transition) : Except Refusal Transition :=
  match pending with
  | none => .ok (.ignore (.nothingPending plan))
  | some upgrade => do
    let expected ← expectedPlan current upgrade
    return if plan = expected then act upgrade else .ignore (.otherPlan plan expected)

/-- The chainlet answered the packet that schedules an upgrade. A success keeps the upgrade
pending, since only the confirmation completes it. -/
def createAcknowledged (pending : Option PendingUpgrade) (current plan : String)
    (success : Bool) : Except Refusal Transition :=
  onMatch pending current plan fun upgrade => if success then .stay else .cancel upgrade .rejected

/-- The packet that schedules an upgrade timed out. The chainlet never learned of the upgrade. -/
def createTimedOut (pending : Option PendingUpgrade) (current plan : String) :
    Except Refusal Transition :=
  onMatch pending current plan fun upgrade => .cancel upgrade .timedOut

/-- The chainlet has reached the height right before its upgrade. The empty plan name stands for
whichever upgrade is pending. -/
def confirmed (pending : Option PendingUpgrade) (current plan : String) :
    Except Refusal Transition :=
  match pending with
  | none => .error .notPending
  | some upgrade =>
    if plan = "" then .ok (.complete upgrade)
    else do
      let expected ← expectedPlan current upgrade
      return if plan = expected then .complete upgrade
        else .ignore (.otherConfirmation plan expected)

/-- The chainlet answered the packet that cancels an upgrade. If it refused, the upgrade stays
scheduled. -/
def cancelAcknowledged (pending : Option PendingUpgrade) (current plan : String)
    (success : Bool) : Except Refusal Transition :=
  onMatch pending current plan fun upgrade => if success then .cancel upgrade .cancelled else .stay

/-- The packet that cancels an upgrade timed out. The upgrade stays scheduled. -/
def cancelTimedOut (pending : Option PendingUpgrade) (current plan : String) :
    Except Refusal Transition :=
  onMatch pending current plan fun _ => .stay

end Handshake

end Chainlets
