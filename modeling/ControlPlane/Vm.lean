import ControlPlane.Id
import ControlPlane.Lifecycle
import ControlPlane.Resources
import ControlPlane.Table

/-! Virtual machines as they are recorded. The state, the two hosts and the version of a record
belong to the lifecycle; the other fields belong to whoever manages machines of that role. -/

namespace ControlPlane

/-- What a machine is for, which decides who is told about its lifecycle. -/
inductive Role where
  | user | domainRouter | consoleProxy | secondaryStorage | internalLoadBalancer
deriving DecidableEq, Repr

instance : Enumeration Role where
  all := [.user, .domainRouter, .consoleProxy, .secondaryStorage, .internalLoadBalancer]
  name
    | .user => "User"
    | .domainRouter => "DomainRouter"
    | .consoleProxy => "ConsoleProxy"
    | .secondaryStorage => "SecondaryStorageVm"
    | .internalLoadBalancer => "InternalLoadBalancer"
  mem_all a := by cases a <;> decide

instance : ToString Role := ⟨Enumeration.name⟩

/-- Machines of the control plane's own, which no user asked for. -/
def Role.IsSystem (r : Role) : Prop := r ≠ .user

instance (r : Role) : Decidable r.IsSystem := by unfold Role.IsSystem; infer_instance

/-- What a host says about the power of one machine. -/
inductive PowerState where
  | on | off | unknown
deriving DecidableEq, Repr

instance : Enumeration PowerState where
  all := [.on, .off, .unknown]
  name
    | .on => "PowerOn"
    | .off => "PowerOff"
    | .unknown => "Unknown"
  mem_all a := by cases a <;> decide

instance : ToString PowerState := ⟨Enumeration.name⟩

@[ext] structure Vm where
  id : VmId
  /-- The name by which hosts know the machine. -/
  token : String
  name : String
  state : State
  host : Option HostId
  lastHost : Option HostId
  /-- The number of transitions that the record has been through. -/
  version : UInt64
  role : Role
  scalable : Bool
  /-- Guest credentials have to be made anew at the next start. -/
  credentialsPending : Bool
  account : AccountId
  zone : ZoneId
  pod : Option PodId
  /-- What a host must be capable of to run the machine. -/
  hypervisor : String
  resources : Resources
deriving DecidableEq, Repr

namespace Vm

instance : Keyed Vm := ⟨fun vm => vm.id.key⟩

/-- A machine that has just been registered: stopped, and never placed anywhere. -/
def register (id : VmId) (token name : String) (account : AccountId) (zone : ZoneId) : Vm where
  id := id
  token := token
  name := name
  state := .stopped
  host := none
  lastHost := none
  version := 0
  role := .user
  scalable := false
  credentialsPending := false
  account := account
  zone := zone
  pod := none
  hypervisor := "kvm"
  resources := .zero

/-- The machine occupies a given host. -/
def On (vm : Vm) (host : HostId) : Prop := vm.state.HoldsHost ∧ vm.host = some host

instance (vm : Vm) (host : HostId) : Decidable (vm.On host) := by unfold On; infer_instance

/-- A host is recorded exactly while the state holds one. -/
def Placed (vm : Vm) : Prop := vm.host.isSome ↔ vm.state.HoldsHost

end Vm
end ControlPlane
