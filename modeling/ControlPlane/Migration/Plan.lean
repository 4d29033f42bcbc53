import ControlPlane.Id
import ControlPlane.Table

/-! Migration plans: which machine moves from where to where, and which of its volumes move
along. -/

namespace ControlPlane

/-- The pool that a volume is to move to. -/
@[ext] structure Relocation where
  volume : VolumeId
  pool : PoolId
deriving DecidableEq, Repr

instance : Keyed Relocation := ⟨fun r => r.volume.key⟩

@[ext] structure Plan where
  vm : VmId
  source : HostId
  destination : HostId
  /-- Empty where only the machine itself moves. -/
  volumes : Table Relocation
  crossCluster : Bool
deriving DecidableEq, Repr

/-- Volumes move along with the machine. -/
def Plan.MovesStorage (plan : Plan) : Prop := plan.volumes.rows ≠ []

instance (plan : Plan) : Decidable plan.MovesStorage := by
  unfold Plan.MovesStorage; infer_instance

end ControlPlane
