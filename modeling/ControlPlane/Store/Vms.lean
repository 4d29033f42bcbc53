import ControlPlane.Failure
import ControlPlane.Store.Basic

/-! Writing machine records. The fields that belong to the lifecycle are written only by a
conditional update, which compares the state and the version of the record; the other fields are
set without a look at either, and leave the version as it is. -/

namespace ControlPlane

/-- A conditional update of the lifecycle fields of one record. -/
structure StateUpdate where
  vm : VmId
  expectedState : State
  expectedVersion : UInt64
  state : State
  host : Option HostId
  lastHost : Option HostId
deriving DecidableEq, Repr

namespace StateUpdate

/-- The record is as the update expects it. -/
def Matches (u : StateUpdate) (vm : Vm) : Prop :=
  vm.state = u.expectedState ∧ vm.version = u.expectedVersion

instance (u : StateUpdate) (vm : Vm) : Decidable (u.Matches vm) := by
  unfold Matches; infer_instance

/-- The record after the update, one version on. -/
def apply (u : StateUpdate) (vm : Vm) : Vm :=
  { vm with
    state := u.state
    host := u.host
    lastHost := u.lastHost
    version := vm.version + 1 }

end StateUpdate

namespace Store

/-- Adds a record, unless there is one with that identifier. -/
def register (s : Store) (vm : Vm) : Except Failure Unit × Store :=
  if (s.vm? vm.id).isSome then (.error (.fault (.vmExists vm.id)), s)
  else (.ok (), { s with vms := s.vms.insert vm })

/-- Writes a conditional update, and gives the record as written; a record that is not as expected
is left alone. -/
def swap (s : Store) (u : StateUpdate) : Except Failure (Option Vm) × Store :=
  match s.vm? u.vm with
  | none => (.error (.notFound (.vm u.vm)), s)
  | some vm =>
    if u.Matches vm then (.ok (some (u.apply vm)), { s with vms := s.vms.insert (u.apply vm) })
    else (.ok none, s)

/-- Changes a record whatever its state and version are. -/
def modifyVm (s : Store) (id : VmId) (change : Vm → Vm) : Except Failure Unit × Store :=
  match s.vm? id with
  | none => (.error (.notFound (.vm id)), s)
  | some vm => (.ok (), { s with vms := s.vms.insert (change vm) })

def setResources (s : Store) (id : VmId) (resources : Resources) : Except Failure Unit × Store :=
  s.modifyVm id fun vm => { vm with resources := resources }

def setCredentialsPending (s : Store) (id : VmId) (pending : Bool) : Except Failure Unit × Store :=
  s.modifyVm id fun vm => { vm with credentialsPending := pending }

end Store
end ControlPlane
