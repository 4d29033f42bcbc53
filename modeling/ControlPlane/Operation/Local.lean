import ControlPlane.Operation.Basic

/-! Operations that involve no host: a machine is destroyed, recovered or expunged. -/

namespace ControlPlane.Operation
open Procedure

/-- Moves a machine by an event, from one of the states that allow it. -/
def locally (ctx : Context) (id : VmId) (operation : Work.Operation) (allowed : List State)
    (event : Event) : Procedure State :=
  underWork ctx id operation none fun _ => rejecting do
    let vm ← loadVm id
    requireState vm (Enumeration.name operation) allowed
    let written ← Transition.run
      { vm := id, expected := vm.state, event := event, version := some vm.version }
    return written.state

def destroy (ctx : Context) (vm : VmId) : Procedure State :=
  locally ctx vm .destroy [.stopped, .error] .destroyRequested

def recover (ctx : Context) (vm : VmId) : Procedure State :=
  locally ctx vm .recover [.destroyed] .recoveryRequested

def expunge (ctx : Context) (vm : VmId) : Procedure State :=
  locally ctx vm .expunge [.destroyed, .stopped] .expungeRequested

end ControlPlane.Operation
