import ControlPlane.Operation.Local
import ControlPlane.Operation.Migrate
import ControlPlane.Operation.Scale
import ControlPlane.Operation.Stop

/-!
# Calls

The operations of the control plane, as somebody calls for them, and what each of them promises of
its machine: where it brings the machine, what it leaves when it fails, and what it leaves when
nobody knows the outcome.
-/

namespace ControlPlane

/-- What the store says of a machine. -/
@[ext] structure View where
  vm : Option Vm
  volumes : List Volume
deriving DecidableEq

def Store.view (s : Store) (v : VmId) : View := ⟨s.vm? v, s.volumesOf v⟩

namespace Operation

/-- An operation that somebody calls for. -/
inductive Call where
  | start (vm : VmId)
  | stop (vm : VmId) (force : Bool)
  | migrate (request : Migration.Request)
  | scale (vm : VmId) (resources : Resources)
  | destroy (vm : VmId)
  | recover (vm : VmId)
  | expunge (vm : VmId)
deriving DecidableEq

/-- Carries out a call, and tells whether that has worked. -/
def Call.perform (ctx : Context) : Call → Procedure Unit
  | .start vm => do let _ ← Operation.start ctx vm
  | .stop vm force => do let _ ← Operation.stop ctx vm force
  | .migrate request => do let _ ← Operation.migrate ctx request
  | .scale vm resources => do let _ ← Operation.scale ctx vm resources
  | .destroy vm => do let _ ← Operation.destroy ctx vm
  | .recover vm => do let _ ← Operation.recover ctx vm
  | .expunge vm => do let _ ← Operation.expunge ctx vm

def Call.vm : Call → VmId
  | .start vm | .stop vm _ | .scale vm _ | .destroy vm | .recover vm | .expunge vm => vm
  | .migrate request => request.vm

/-- The machine has gone by an event. -/
def Follows (event : Event) (first last : View) : Prop :=
  ∃ vm vm', first.vm = some vm ∧ last.vm = some vm' ∧ vm.state.next? event = some vm'.state

/-- The machine still runs where it ran, with its volumes where they were. -/
def Stays (first last : View) : Prop :=
  ∃ vm vm', first.vm = some vm ∧ last.vm = some vm' ∧ vm'.state = .running ∧
    vm'.host = vm.host ∧ last.volumes = first.volumes

namespace Call

/-- The machine is where the call was to bring it. -/
def Reaches (first last : View) : Call → Prop
  | .start _ => ∃ vm, last.vm = some vm ∧ vm.state = .running
  | .stop .. => ∃ vm, last.vm = some vm ∧ vm.state = .stopped
  | .migrate request =>
    ∃ vm, last.vm = some vm ∧ vm.state = .running ∧ vm.host = some request.destination
  | .scale _ resources =>
    ∃ vm, last.vm = some vm ∧ vm.state = .running ∧ vm.resources = resources
  | .destroy _ => Follows .destroyRequested first last
  | .recover _ => Follows .recoveryRequested first last
  | .expunge _ => Follows .expungeRequested first last

/-- The machine is at rest after the call has failed. A call that involves no host does not fail
after it has written anything. -/
def Rests (first last : View) : Call → Prop
  | .start _ => ∃ vm, last.vm = some vm ∧ vm.state = .stopped ∧ vm.host = none
  | .stop .. | .migrate _ => Stays first last
  | .scale .. => ∃ vm vm', first.vm = some vm ∧ last.vm = some vm' ∧ vm'.state = .running ∧
      vm'.resources = vm.resources
  | .destroy _ | .recover _ | .expunge _ => False

/-- The machine is in the state in which the call has sent a command whose outcome is unknown. -/
def Hangs (last : View) : Call → Prop
  | .start _ => ∃ vm, last.vm = some vm ∧ vm.state = .starting
  | .stop .. => ∃ vm, last.vm = some vm ∧ vm.state = .stopping
  | .migrate request =>
    ∃ vm, last.vm = some vm ∧ vm.state = .running ∧ vm.host = some request.source
  | .scale .. => ∃ vm, last.vm = some vm ∧ vm.state = .running
  | .destroy _ | .recover _ | .expunge _ => False

end Call
end Operation
end ControlPlane
