import ControlPlane.Enumeration
import ControlPlane.Id
import ControlPlane.Table

/-! What machines run on: hosts, storage pools and volumes. -/

namespace ControlPlane

inductive HostStatus where
  | up | down | disconnected | maintenance
deriving DecidableEq, Repr

instance : Enumeration HostStatus where
  all := [.up, .down, .disconnected, .maintenance]
  name
    | .up => "Up"
    | .down => "Down"
    | .disconnected => "Disconnected"
    | .maintenance => "Maintenance"
  mem_all a := by cases a <;> decide

instance : ToString HostStatus := ⟨Enumeration.name⟩

@[ext] structure Host where
  id : HostId
  name : String
  zone : ZoneId
  pod : PodId
  cluster : ClusterId
  status : HostStatus
  enabled : Bool
  /-- The most guests that the host accepts at a time. -/
  maxGuests : UInt32
  capabilities : List String
deriving DecidableEq, Repr

instance : Keyed Host := ⟨fun host => host.id.key⟩

/-- New guests may be placed on the host. -/
def Host.Schedulable (host : Host) : Prop := host.enabled = true ∧ host.status = .up

instance (host : Host) : Decidable host.Schedulable := by unfold Host.Schedulable; infer_instance

/-- From where a pool can be reached; `host` stands for the local disk of a single host. -/
inductive PoolScope where
  | host | cluster | zone
deriving DecidableEq, Repr

instance : Enumeration PoolScope where
  all := [.host, .cluster, .zone]
  name
    | .host => "Host"
    | .cluster => "Cluster"
    | .zone => "Zone"
  mem_all a := by cases a <;> decide

instance : ToString PoolScope := ⟨Enumeration.name⟩

@[ext] structure Pool where
  id : PoolId
  name : String
  scope : PoolScope
  /-- Where hosts mount the pool; the folder of every volume on it. -/
  path : String
  pod : Option PodId
  cluster : Option ClusterId
deriving DecidableEq, Repr

namespace Pool

instance : Keyed Pool := ⟨fun pool => pool.id.key⟩

def isLocal (pool : Pool) : Bool := pool.scope = .host

/-- Hosts of a cluster reach the pool. -/
def ReachableFrom (pool : Pool) (cluster : ClusterId) : Prop :=
  pool.scope = .zone ∨ pool.cluster = some cluster

instance (pool : Pool) (cluster : ClusterId) : Decidable (pool.ReachableFrom cluster) := by
  unfold ReachableFrom; infer_instance

end Pool

@[ext] structure Volume where
  id : VolumeId
  vm : Option VmId
  name : String
  pool : PoolId
  lastPool : Option PoolId
  path : String
  folder : Option String
  pod : Option PodId
  /-- The volume asks for the local disk of its host. -/
  wantsLocal : Bool
deriving DecidableEq, Repr

namespace Volume

instance : Keyed Volume := ⟨fun volume => volume.id.key⟩

/-- The volume after its data have gone to a pool. The former pool is remembered only if it is
another one, so that recording the same move again changes nothing. -/
def moveTo (volume : Volume) (pool : Pool) (path : Option String) : Volume :=
  { volume with
    pool := pool.id
    lastPool := if volume.pool = pool.id then volume.lastPool else some volume.pool
    folder := some pool.path
    pod := pool.pod.or volume.pod
    path := path.getD volume.path }

end Volume

/-- The move of one volume to a pool, with the new path if the host reported one. -/
structure VolumeMove where
  volume : VolumeId
  pool : PoolId
  path : Option String
deriving DecidableEq, Repr

end ControlPlane
