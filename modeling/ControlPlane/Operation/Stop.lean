import ControlPlane.Operation.Start

/-! Stopping a machine. An answer that never came does not count as success. -/

namespace ControlPlane.Operation
open Control Procedure

def stopBody (ctx : Context) (id : VmId) (force : Bool) : Body Vm := do
  let vm ← rejecting (loadVm id)
  rejecting (requireState vm "stop" [.running])
  let host ← rejecting (requireHost vm)
  rejecting (requireGuru vm.role)
  rejecting (demand (.prepareStop vm) rfl)
  let _ ← rejecting (Transition.run
    { vm := id, expected := .running, event := .stopRequested, version := some vm.version })
  let body : Agent.StopBody := ⟨id, vm.token, force⟩
  match ← sendResolved ctx host vm.token .off .stop body ctx.waits.stopWait with
  | .succeeded =>
    let stopped ← resolving (Transition.run
      { vm := id, expected := .stopping, event := .operationSucceeded })
    let _ ← outcome (demand (.finalizeStop stopped) rfl)
    return stopped
  | .failed failure =>
    let _ ← resolving (Transition.run
      { vm := id, expected := .stopping, event := .operationFailed })
    throw (.failed failure)
  | .unknown failure => throw (.unresolved failure)

/-- Stops a running machine. -/
def stop (ctx : Context) (vm : VmId) (force : Bool) : Procedure Vm :=
  underWork ctx vm .stop none fun _ => stopBody ctx vm force

end ControlPlane.Operation
