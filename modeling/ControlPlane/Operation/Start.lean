import ControlPlane.Operation.Basic

/-! Starting a machine: hosts are tried one after the other, until one reports that the machine runs
and the guru of its role agrees. -/

namespace ControlPlane.Operation
open Control Procedure

/-- Fails if nobody manages machines of a role. -/
def requireGuru (role : Role) : Procedure Unit := do
  unless ← ask (.hasGuru role) do throw (.fault (.noGuru role))

/-- Records that a machine runs, and that its credentials are made. -/
def finishStart (starting : Vm) : Procedure Vm := do
  let running ← Transition.run
    { vm := starting.id, expected := .starting, event := .operationSucceeded }
  if starting.credentialsPending then
    demand (.transact (.setCredentialsPending starting.id false)) rfl
  loadVm running.id

/-- Turns off a machine whose start the guru refused. It is not known whether that works. -/
def forceStop (ctx : Context) (vm : Vm) (host : HostId) : Program surroundings Unit := do
  let _ ← (Agent.dispatch host .stop (⟨vm.id, vm.token, true⟩ : Agent.StopBody)
    ctx.waits.stopWait).run

/-- The failure of a start that has no host left to try. -/
def outOfHosts (vm : VmId) : Option Failure → Ending
  | none => .rejected (.unavailable (.noStartHost vm))
  | some last => .failed (.startFailed vm last)

/-- How one attempt to start a machine ends. -/
inductive StartAttempt where
  | running (vm : Vm)
  | refused (failure : Failure)

/-- Sends a machine that is recorded as starting to its host. -/
def startOn (ctx : Context) (vm starting : Vm) (host : HostId) : Body StartAttempt := do
  let body : Agent.StartBody := ⟨vm.id, vm.token, vm.resources, vm.credentialsPending⟩
  match ← sendResolved ctx host vm.token .on .start body ctx.waits.startWait with
  | .unknown failure => throw (.unresolved failure)
  | .failed failure => return .refused failure
  | .succeeded =>
    match ← outcome (demand (.finalizeStart starting host) rfl) with
    | .ok () => return .running (← resolving (finishStart starting))
    | .error failure =>
      forceStop ctx starting host
      return .refused failure

/-- Tries the hosts that the planner names, as often as attempts remain. -/
def tryStart (ctx : Context) (vm : Vm) :
    Nat → Placement.Exclusions → Option Failure → Body Vm
  | 0, _, last => throw (outOfHosts vm.id last)
  | remaining + 1, excluded, last => do
    let wanted : Placement.Wanted :=
      ⟨vm.zone, vm.pod, none, vm.hypervisor, vm.lastHost.filter (!excluded.rulesOut ·)⟩
    match ← failing (demand (.selectHost wanted excluded) rfl) with
    | none => throw (outOfHosts vm.id last)
    | some host =>
      let current ← failing (loadVm vm.id)
      let request : Transition :=
        { vm := vm.id, expected := .stopped, event := .startRequested
          host := some host, version := some current.version }
      let starting ←
        (if last.isNone then rejecting else failing) (Transition.run request)
      match ← startOn ctx vm starting host with
      | .running vm => return vm
      | .refused failure =>
        let _ ← resolving (Transition.run
          { vm := vm.id, expected := .starting, event := .operationFailed })
        tryStart ctx vm remaining (excluded.insert host) (some failure)

def startBody (ctx : Context) (id : VmId) : Body Vm := do
  let vm ← rejecting (loadVm id)
  rejecting (requireState vm "start" [.stopped])
  rejecting (requireGuru vm.role)
  tryStart ctx vm ctx.waits.startRetries.toNat ∅ none

/-- Starts a stopped machine on a host of the planner's choice. -/
def start (ctx : Context) (vm : VmId) : Procedure Vm :=
  underWork ctx vm .start none fun _ => startBody ctx vm

end ControlPlane.Operation
