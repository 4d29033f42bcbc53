import ControlPlane.Migration.Record

/-! Migration of a machine together with volumes. Inside a cluster one command to the destination
does it. Between clusters the destination is prepared, the source sends, and the destination takes
over; nothing is recorded before the last of these has succeeded. -/

namespace ControlPlane.Migration
open Procedure Operation

/-- Asks both hosts where the machine runs, after the answer of a migration was lost. The paths of
the volumes were lost with the answer. -/
def locateWithStorage (ctx : Context) (vm : Vm) (plan : Plan) (targets : List Agent.VolumeTarget)
    (lost : Failure) : Body Vm := do
  match ← Agent.powerStates plan.source plan.destination vm.token ctx.probeWait with
  | (.ok .off, .ok .on) => resolving (record vm plan (movesOf targets))
  | (.ok .on, _) => throw (.failed lost)
  | _ => throw (.unresolved lost)

def withinCluster (ctx : Context) (vm : Vm) (plan : Plan) (targets : List Agent.VolumeTarget) :
    Body Vm := do
  let body : Agent.MigrateWithStorageBody := ⟨vm.token, plan.source, targets⟩
  match ← outcome
      (Agent.dispatch plan.destination .migrateWithStorage body ctx.waits.storageMigrateWait) with
  | .ok reported => resolving (record vm plan (movesWithPaths targets reported))
  | .error failure =>
    if failure.kind.Ambiguous then locateWithStorage ctx vm plan targets failure
    else throw (.failed failure)

/-- Takes back what the destination has prepared. It is not known whether that works. -/
def cleanup (ctx : Context) (vm : Vm) (plan : Plan) (ticket : String) :
    Program Control.surroundings Unit := do
  let body : Agent.CleanupBody := ⟨vm.token, ticket⟩
  let _ ← (Agent.dispatch plan.destination .cleanup body ctx.commandWait).run

/-- Has the source send the machine. Only a source that still runs it lets the destination be
cleaned up. -/
def send (ctx : Context) (vm : Vm) (plan : Plan) (rendezvous : Agent.Rendezvous) : Body Unit := do
  let body : Agent.SendBody := ⟨vm.token, plan.destination, rendezvous⟩
  match ← outcome (Agent.dispatch plan.source .send body ctx.waits.storageMigrateWait) with
  | .ok _ => return ()
  | .error failure =>
    if failure.kind.Ambiguous then
      match ← Agent.powerState plan.source vm.token ctx.probeWait with
      | .ok .on =>
        cleanup ctx vm plan rendezvous.ticket
        throw (.failed failure)
      | _ => throw (.unresolved failure)
    else
      cleanup ctx vm plan rendezvous.ticket
      throw (.failed failure)

/-- What the hosts say after the destination has not taken over. -/
def split (ctx : Context) (vm : Vm) (plan : Plan) (cause : Failure) :
    Program Control.surroundings Failure := do
  let (source, destination) ←
    Agent.powerStates plan.source plan.destination vm.token ctx.probeWait
  return .splitMigration vm.id cause source.toOption destination.toOption

def acrossClusters (ctx : Context) (vm : Vm) (plan : Plan) (targets : List Agent.VolumeTarget) :
    Body Vm := do
  let receive : Agent.ReceiveBody := ⟨vm.token, targets⟩
  let rendezvous ← failing
    (Agent.dispatch plan.destination .receive receive ctx.waits.storageMigrateWait)
  send ctx vm plan rendezvous
  resolving (pass .beforeComplete)
  let complete : Agent.CompleteBody := ⟨vm.token, targets⟩
  match ← outcome
      (Agent.dispatch plan.destination .complete complete ctx.waits.storageMigrateWait) with
  | .ok reported => resolving (record vm plan (movesWithPaths targets reported))
  | .error failure => throw (.unresolved (← split ctx vm plan failure))

end ControlPlane.Migration
