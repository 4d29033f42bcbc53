import ControlPlane.Migration.Compute
import ControlPlane.Placement.RetryLoop

/-! Scaling a running machine up: in place where its host has room, and otherwise after a move to a
host that has. -/

namespace ControlPlane.Operation
open Control Procedure

/-- Moves a machine to a host, and gives the machine as it was read before. -/
def moveForScale (ctx : Context) (item : Work.Item) (vm : Vm) (destination : HostId) :
    Procedure Vm := do
  let source ← requireHost vm
  let plan ← Migration.plan ⟨vm.id, source, destination, ∅⟩
  let (moving, _) ← Migration.check plan
  Work.recordPlan item plan
  match ← ExceptT.lift (Migration.compute ctx moving plan).run with
  | .ok _ => return vm
  | .error (.unresolved failure) => throw (.unplacedScale vm.id failure)
  | .error ending => throw ending.failure

/-- Scales a machine on a target. -/
def scaleOn (ctx : Context) (item : Work.Item) (id : VmId) (resources : Resources)
    (target : Placement.Target) : Procedure Vm := do
  let vm ← loadVm id
  let vm ← (match target with
    | .inPlace _ => pure vm
    | .migrate destination => moveForScale ctx item vm destination)
  let body : Agent.ScaleBody := ⟨vm.token, resources⟩
  Agent.dispatch target.host .scale body ctx.waits.scaleWait
  demand (.transact (.setResources id resources)) rfl
  loadVm id

/-- What a call of the retry loop does for a machine that scales up. -/
def answerCall (ctx : Context) (item : Work.Item) (resources : Resources)
    (growth : Placement.Growth) :
    (call : Placement.Call) → Program surroundings ((Placement.calls Vm).Reply call)
  | .increment => (transact (.charge growth.account growth.delta)).run
  | .decrement => (transact (.credit growth.account growth.delta)).run
  | .hasRoom host => Program.call (I := surroundings) (.hasRoom host growth.delta)
  | .selectHost excluded => Program.call (I := surroundings) (.selectHost growth.wanted excluded)
  | .attempt target => (scaleOn ctx item growth.vm resources target).run

/-- The failure of a machine that cannot be placed anywhere. -/
def ofPlacement (failure : Failure) : Ending :=
  if failure.NeedsReconciliation then .unresolved failure else .failed failure

/-- How much a machine grows, if it can. -/
def growthOf (vm : Vm) (resources : Resources) : Except Failure Placement.Growth :=
  if !vm.scalable then .error (.unavailable (.notScalable vm.id))
  else match vm.resources.growth? resources with
    | none => .error (.unavailable (.noGrowth vm.id vm.resources resources))
    | some delta =>
      .ok ⟨vm.id, vm.account, vm.host, ⟨vm.zone, vm.pod, none, vm.hypervisor, none⟩, delta⟩

def scaleBody (ctx : Context) (id : VmId) (resources : Resources) (item : Work.Item) : Body Vm := do
  let vm ← rejecting (loadVm id)
  rejecting (requireState vm "scale" [.running])
  let growth ← rejecting (growthOf vm resources)
  let answer := answerCall ctx item resources growth
  match ← ExceptT.lift ((Placement.retry Vm growth ctx.maxRetries.toNat).run answer) with
  | .ok outcome => return outcome.value
  | .error failure => throw (ofPlacement failure)

/-- Gives a running machine more resources. -/
def scale (ctx : Context) (vm : VmId) (resources : Resources) : Procedure Vm :=
  underWork ctx vm .scale none (scaleBody ctx vm resources)

end ControlPlane.Operation
