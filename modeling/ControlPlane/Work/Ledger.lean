import ControlPlane.Control

/-! The ledger of a node. An operation begins its work before it does anything else, and holds the
lock of its machine until the work is finished, or left to the recovery scan. -/

namespace ControlPlane

/-- What an operation needs to know of its node. -/
structure Node where
  id : NodeId
  /-- The wait for the lock of a machine. -/
  lockWait : Span
deriving DecidableEq, Repr

namespace Work
open Procedure

def lockName (node : Node) (vm : VmId) : LockName := ⟨node.id, vm⟩

/-- Takes the lock of a machine. -/
def lock (node : Node) (vm : VmId) : Procedure Unit := do
  unless ← ask (.lock (lockName node vm)) do
    throw (.conflict vm (.lockHeld node.lockWait))

/-- Carries out an action under a lock that is held; the lock is given up where the action fails. -/
def orUnlock {α : Type} (node : Node) (vm : VmId) (action : Procedure α) : Procedure α :=
  tryCatch action fun failure => do
    ask (.unlock (lockName node vm) .plain)
    throw failure

/-- Locks a machine and opens an item for an operation on it. It fails if the lock cannot be had in
time, or if an item of the machine is open. -/
def start (node : Node) (vm : VmId) (operation : Operation) (plan : Option Plan) :
    Procedure Item := do
  lock node vm
  let now ← ask .now
  let id ← ask .freshId
  let item : Item := ⟨id, vm, node.id, .started, operation, plan, now, now⟩
  orUnlock node vm do
    pass .beginWork
    demand (.transact (.openItem item)) rfl
  return item

/-- Closes an item and gives up the lock. -/
def finish (node : Node) (item : Item) (step : Step) : Procedure Unit := do
  transact (.closeItem item step (← ask .now))
  ask (.unlock (lockName node item.vm) .tidy)

/-- Gives up the lock and leaves the item open. -/
def abandon (node : Node) (item : Item) : Procedure Unit :=
  ask (.unlock (lockName node item.vm) .tidy)

/-- Notes the migration that an operation is about to make. -/
def recordPlan (item : Item) (plan : Plan) : Procedure Unit := do
  transact (.planItem item plan (← ask .now))

/-- Closes an item that was left open, and tells whether it still was. -/
def closeRecovered (item : Item) (step : Step) : Procedure Bool := do
  transact (.recoverItem item.id step (← ask .now))

end Work
end ControlPlane
