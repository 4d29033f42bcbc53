import ControlPlane.Inventory
import ControlPlane.Vm
import ControlPlane.Work.Item

/-! The store: everything that outlives the process, in tables. -/

namespace ControlPlane

/-- What an account has in use. -/
@[ext] structure Usage where
  account : AccountId
  resources : Resources
deriving DecidableEq, Repr

instance : Keyed Usage := ⟨fun u => u.account.key⟩

@[ext] structure Store where
  vms : Table Vm := ∅
  hosts : Table Host := ∅
  pools : Table Pool := ∅
  volumes : Table Volume := ∅
  work : Table Work.Item := ∅
  /-- The machines with an open work item. -/
  active : Table Work.Slot := ∅
  usage : Table Usage := ∅
deriving DecidableEq, Repr

namespace Store

instance : Inhabited Store := ⟨{}⟩

def vm? (s : Store) (id : VmId) : Option Vm := s.vms.get? id.key

def host? (s : Store) (id : HostId) : Option Host := s.hosts.get? id.key

def pool? (s : Store) (id : PoolId) : Option Pool := s.pools.get? id.key

def volume? (s : Store) (id : VolumeId) : Option Volume := s.volumes.get? id.key

def item? (s : Store) (id : Uuid) : Option Work.Item := s.work.get? id.toNat

/-- The open item of a machine. -/
def openItem? (s : Store) (vm : VmId) : Option Uuid := (s.active.get? vm.key).map (·.item)

/-- What an account has in use; an account that was never charged uses nothing. -/
def usageOf (s : Store) (account : AccountId) : Resources :=
  ((s.usage.get? account.key).map (·.resources)).getD .zero

def volumesOf (s : Store) (vm : VmId) : List Volume := s.volumes.rows.filter (·.vm = some vm)

/-- The number of machines that occupy a host. -/
def guestsOn (s : Store) (host : HostId) : Nat := (s.vms.rows.filter (·.On host)).length

/-- All work items, the oldest first. -/
def items (s : Store) : List Work.Item :=
  s.work.rows.mergeSort fun a b => decide (a.created.Le b.created)

/-- The open items of a node, the oldest first. -/
def openItems (s : Store) (owner : NodeId) : List Work.Item :=
  s.items.filter fun item => item.owner = owner ∧ item.Open

def putHost (s : Store) (host : Host) : Store := { s with hosts := s.hosts.insert host }

def putPool (s : Store) (pool : Pool) : Store := { s with pools := s.pools.insert pool }

def putVolume (s : Store) (volume : Volume) : Store := { s with volumes := s.volumes.insert volume }

end Store
end ControlPlane
