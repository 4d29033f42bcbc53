import ControlPlane.Migration.Precondition

/-! Recording a migration that has been made: the volumes first, then the machine. -/

namespace ControlPlane.Migration
open Procedure

/-- The moves of the volumes in a plan, where the hosts have not said what the paths are. -/
def movesOf (targets : List Agent.VolumeTarget) : List VolumeMove :=
  targets.map fun target => ⟨target.volume, target.pool, none⟩

/-- The path that a host has reported for a volume; of two reports the later counts. -/
def reportedPath (volume : VolumeId) (reported : List Agent.VolumePath) : Option String :=
  (reported.reverse.find? (·.volume = volume)).map (·.path)

/-- The moves of the volumes in a plan, each with the path that the host reported for it. -/
def movesWithPaths (targets : List Agent.VolumeTarget) (reported : List Agent.VolumePath) :
    List VolumeMove :=
  targets.map fun target => ⟨target.volume, target.pool, reportedPath target.volume reported⟩

/-- Records a finished move of a machine and of volumes. -/
def record (vm : Vm) (plan : Plan) (moves : List VolumeMove) : Procedure Vm := do
  unless moves.isEmpty do demand (.transact (.moveVolumes moves)) rfl
  let _ ← Transition.run
    { vm := vm.id, expected := .running, event := .migrationRequested, version := some vm.version }
  Transition.run
    { vm := vm.id, expected := .migrating, event := .operationSucceeded
      host := some plan.destination }

end ControlPlane.Migration
