import Chainlets.Execution
import Chainlets.Message

/-!
# Creating and changing stacks

Every operation that enables or disables a version writes the stack first and then changes the
version tree along with it, in the same execution.

## Main definitions

* `Operation.createStack`, `Operation.addVersion`, `Operation.disableVersion`.
-/

namespace Chainlets.Operation

open Execution

variable {ω : Type}

/-- While stacks are protected, only allowed addresses and admins may manage them. -/
def requireStackManager (address : String) : Execution ω Unit := do
  let params ← params
  let allowed ← ask fun parent world =>
    parent.mayManageStacks address world || parent.isAdmin address world
  if params.stackProtections && !allowed then fail (.unauthorized (.manageStacks address))

/-- Create a stack with its first version. -/
def createStack (msg : CreateStack) : Execution ω Unit := do
  requireStackManager msg.creator
  if (← stack? msg.name).isSome then fail (.alreadyExists (.stack msg.name))
  requireVersion msg.version
  putStack {
    name := msg.name
    description := msg.description
    fees := msg.fees
    versions := [{
      image := msg.image
      version := msg.version
      checksum := msg.checksum
      enabled := true
      isConsumer := msg.isConsumer }] }
  changeTree fun t => t.add msg.name msg.version
  emit (.createStack msg.name msg.creator)
  emit (.addStackVersion msg.name msg.version msg.isConsumer)

/-- Add a version to a stack, beside which it has to be able to stand. -/
def addVersion (msg : AddVersion) : Execution ω Unit := do
  requireStackManager msg.creator
  let stack ← stack msg.name
  requireVersion msg.version
  let candidate : StackVersion := {
    image := msg.image
    version := msg.version
    checksum := msg.checksum
    enabled := true
    isConsumer := msg.isConsumer }
  match stack.colliding? candidate with
  | some existing => fail (.alreadyExists (.colliding existing.version stack.name))
  | none =>
    putStack (stack.addVersion candidate)
    changeTree fun t => t.add stack.name msg.version
    emit (.addStackVersion stack.name msg.version msg.isConsumer)

/-- Disable a version of a stack. It stays on record. A version that is disabled already is left as
it is. -/
def disableVersion (msg : DisableVersion) : Execution ω Unit := do
  requireStackManager msg.creator
  let stack ← stack msg.name
  match stack.version? msg.version with
  | none => fail (.notFound (.stackVersion msg.version msg.name))
  | some v =>
    if v.enabled then
      putStack (stack.disable msg.version)
      changeTree fun t => t.remove stack.name msg.version
      emit (.disableStackVersion stack.name msg.version)

end Chainlets.Operation
