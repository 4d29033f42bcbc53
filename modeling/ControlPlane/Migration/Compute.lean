import ControlPlane.Migration.Record

/-! Migration of a machine without its volumes: one command to the source host. -/

namespace ControlPlane.Migration
open Procedure Operation

/-- Where a machine is after a migration. -/
inductive Landing where
  | moved
  | notMoved (failure : Failure)
  | unknown (failure : Failure)
deriving DecidableEq, Repr

/-- Asks the destination and then the source whether the machine runs there. -/
def locate (ctx : Context) (vm : Vm) (plan : Plan) (lost : Failure) :
    Program Control.surroundings Landing := do
  match ← Agent.powerState plan.destination vm.token ctx.probeWait with
  | .ok .on => return .moved
  | _ =>
    match ← Agent.powerState plan.source vm.token ctx.probeWait with
    | .ok .on => return .notMoved lost
    | _ => return .unknown lost

/-- Sends a machine away and finds out where it is. -/
def sendAway (ctx : Context) (vm : Vm) (plan : Plan) : Program Control.surroundings Landing := do
  let body : Agent.MigrateBody := ⟨vm.token, plan.destination⟩
  match ← (Agent.dispatch plan.source .migrate body ctx.waits.migrateWait).run with
  | .ok _ => return .moved
  | .error failure =>
    if failure.kind.Ambiguous then locate ctx vm plan failure
    else return .notMoved failure

def compute (ctx : Context) (vm : Vm) (plan : Plan) : Body Vm := do
  match ← sendAway ctx vm plan with
  | .moved => resolving (record vm plan [])
  | .notMoved failure => throw (.failed failure)
  | .unknown failure => throw (.unresolved failure)

end ControlPlane.Migration
