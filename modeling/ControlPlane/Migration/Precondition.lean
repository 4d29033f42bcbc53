import ControlPlane.Operation.Basic

/-! What has to hold before a migration is begun. Everything is checked against the records, before
anything is sent. -/

namespace ControlPlane.Migration
open Procedure Operation

/-- A migration that somebody asks for. -/
structure Request where
  vm : VmId
  source : HostId
  destination : HostId
  volumes : Table Relocation
deriving DecidableEq, Repr

/-- The plan for a request: it tells whether the hosts are in different clusters. -/
def plan (request : Request) : Procedure Plan := do
  let source ← loadHost request.source
  let destination ← loadHost request.destination
  return ⟨request.vm, source.id, destination.id, request.volumes,
    source.cluster != destination.cluster⟩

/-- The machine is where the plan takes it from, and it is to go somewhere else. -/
def checkHosts (plan : Plan) (vm : Vm) : Except Failure Unit :=
  if vm.host ≠ some plan.source then
    .error (.conflict vm.id (.elsewhere vm.host plan.source))
  else if plan.source = plan.destination then
    .error (.unavailable (.alreadyThere vm.id plan.destination))
  else .ok ()

/-- The pool suits a volume, and the destination reaches it. -/
def checkPool (destination : Host) (volume : Volume) (pool : Pool) : Except Failure Unit :=
  if volume.wantsLocal ≠ pool.isLocal then
    .error (.unavailable (.storageClass volume.id volume.wantsLocal pool.id pool.isLocal))
  else if pool.ReachableFrom destination.cluster then .ok ()
  else .error (.unavailable (.poolUnreachable pool.id destination.id))

/-- Where a volume is to go. A volume that stays must not lie on a local disk. -/
def targetOf (plan : Plan) (destination : Host) (volume : Volume) :
    Procedure (Option Agent.VolumeTarget) := do
  match plan.volumes.get? volume.id.key with
  | some relocation =>
    let pool ← loadPool relocation.pool
    checkPool destination volume pool
    return some ⟨volume.id, volume.path, pool.id, pool.path⟩
  | none =>
    let pool ← loadPool volume.pool
    if pool.isLocal then throw (.unavailable (.leftOnLocalPool volume.id pool.id))
    return none

/-- Where the volumes of a machine are to go. -/
def targets (plan : Plan) (destination : Host) : List Volume → Procedure (List Agent.VolumeTarget)
  | [] => return []
  | volume :: volumes => do
    let target ← targetOf plan destination volume
    return target.toList ++ (← targets plan destination volumes)

/-- The destination can take the machine. -/
def checkDestination (destination : Host) (vm : Vm) (connected : Bool) (guests : Nat) :
    Except Failure Unit :=
  if !connected then .error (.unavailable (.unreachable destination.id))
  else if ¬ destination.Schedulable then
    .error (.unavailable (.unschedulable destination.id destination.status destination.enabled))
  else if vm.hypervisor ∉ destination.capabilities then
    .error (.unavailable (.incapable destination.id vm.hypervisor))
  else if destination.maxGuests.toNat ≤ guests then
    .error (.unavailable (.guestLimit destination.id guests destination.maxGuests))
  else .ok ()

/-- Checks a plan, and gives the machine and the targets of the volumes that move. -/
def check (plan : Plan) : Procedure (Vm × List Agent.VolumeTarget) := do
  let vm ← loadVm plan.vm
  requireState vm "migrate" [.running]
  checkHosts plan vm
  if ← demand (.snapshotPending vm.id) rfl then throw (.unavailable (.snapshotPending vm.id))
  let destination ← loadHost plan.destination
  let targets ← targets plan destination (← transact (.volumesOf vm.id))
  if targets.length ≠ plan.volumes.size then throw (.fault (.foreignVolumes vm.id))
  let connected ← ask (.isConnected destination.id)
  let guests ← transact (.guestsOn destination.id)
  checkDestination destination vm connected guests
  return (vm, targets)

end ControlPlane.Migration
