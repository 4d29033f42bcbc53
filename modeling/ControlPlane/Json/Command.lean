import ControlPlane.Agent.Command
import ControlPlane.Json.Record

/-! Commands and answers as JSON. -/

namespace ControlPlane.Agent

def VolumePath.toJson (p : VolumePath) : Json :=
  .obj [("volume_id", p.volume.toJson), ("path", .str p.path)]

def VolumeTarget.toJson (t : VolumeTarget) : Json :=
  .obj [
    ("volume_id", t.volume.toJson),
    ("volume_path", .str t.path),
    ("pool_id", t.pool.toJson),
    ("pool_path", .str t.poolPath)]

def Rendezvous.members (r : Rendezvous) : List (String × Json) :=
  [("token", .str r.ticket),
   ("volume_to_storage", .arr (r.storage.map fun (v, s) => .arr [v.toJson, .str s])),
   ("nic_to_network", .arr (r.networks.map fun (a, b) => .arr [.str a, .str b]))]

def Kind.bodyToJson : (k : Kind) → k.Body → Json
  | .start, (b : StartBody) =>
    .obj [("vm_id", b.vm.toJson), ("vm_uuid", .str b.token), ("resources", b.resources.toJson),
      ("regenerate_credentials", .bool b.renewCredentials)]
  | .stop, (b : StopBody) =>
    .obj [("vm_id", b.vm.toJson), ("vm_uuid", .str b.token), ("force", .bool b.force)]
  | .checkState, (b : CheckStateBody) => .obj [("vm_uuid", .str b.token)]
  | .migrate, (b : MigrateBody) =>
    .obj [("vm_uuid", .str b.token), ("destination_host_id", b.destination.toJson)]
  | .migrateWithStorage, (b : MigrateWithStorageBody) =>
    .obj [("vm_uuid", .str b.token), ("source_host_id", b.source.toJson),
      ("volumes", .arr (b.volumes.map VolumeTarget.toJson))]
  | .receive, (b : ReceiveBody) =>
    .obj [("vm_uuid", .str b.token), ("volumes", .arr (b.volumes.map VolumeTarget.toJson))]
  | .send, (b : SendBody) =>
    .obj ([("vm_uuid", .str b.token), ("destination_host_id", b.destination.toJson)] ++
      b.rendezvous.members)
  | .complete, (b : CompleteBody) =>
    .obj [("vm_uuid", .str b.token), ("volumes", .arr (b.volumes.map VolumeTarget.toJson))]
  | .cleanup, (b : CleanupBody) => .obj [("vm_uuid", .str b.token), ("token", .str b.ticket)]
  | .scale, (b : ScaleBody) =>
    .obj [("vm_uuid", .str b.token), ("resources", b.resources.toJson)]

def Kind.replyToJson : (k : Kind) → k.Reply → Json
  | .checkState, (power : PowerState) => .obj [("power_state", .str (toString power))]
  | .migrateWithStorage, (volumes : List VolumePath) =>
    .obj [("volumes", .arr (volumes.map VolumePath.toJson))]
  | .receive, (r : Rendezvous) => .obj r.members
  | .complete, (volumes : List VolumePath) =>
    .obj [("volumes", .arr (volumes.map VolumePath.toJson))]
  | .start, _ | .stop, _ | .migrate, _ | .send, _ | .cleanup, _ | .scale, _ => .null

end ControlPlane.Agent
