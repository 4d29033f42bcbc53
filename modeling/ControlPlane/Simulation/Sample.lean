import ControlPlane.Inventory
import ControlPlane.Vm

/-! Sample records, from which simulated surroundings are put together. -/

namespace ControlPlane.Simulation.Sample

/-- A stopped machine of a user, with two cores and two gigabytes. -/
def vm (id : VmId) : Vm :=
  { Vm.register id s!"vm-uuid-{id}" s!"vm-{id}" ⟨1⟩ ⟨1⟩ with
    pod := some ⟨1⟩
    resources := ⟨2, 2048⟩ }

/-- A host that is up and runs kvm guests. -/
def host (id : HostId) (cluster : ClusterId) : Host where
  id := id
  name := s!"host-{id}"
  zone := ⟨1⟩
  pod := ⟨1⟩
  cluster := cluster
  status := .up
  enabled := true
  maxGuests := 50
  capabilities := ["kvm"]

/-- A pool of a cluster, or the local disk of a host. -/
def pool (id : PoolId) (cluster : ClusterId) (isLocal : Bool) : Pool where
  id := id
  name := s!"pool-{id}"
  scope := if isLocal then .host else .cluster
  path := s!"/mnt/pool-{id}"
  pod := some ⟨1⟩
  cluster := some cluster

def volume (id : VolumeId) (vm : VmId) (pool : PoolId) (wantsLocal : Bool) : Volume where
  id := id
  vm := some vm
  name := s!"vol-{id}"
  pool := pool
  lastPool := none
  path := s!"vol-{id}-path"
  folder := none
  pod := some ⟨1⟩
  wantsLocal := wantsLocal

end ControlPlane.Simulation.Sample
