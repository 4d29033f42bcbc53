import ControlPlane.Inventory
import ControlPlane.Json.Basic
import ControlPlane.Timestamp.Text
import ControlPlane.Vm
import ControlPlane.Work.Item

/-! Records as JSON objects. -/

namespace ControlPlane

def Id.toJson {e : Entity} (i : Id e) : Json := .num i.key

def Resources.toJson (r : Resources) : Json :=
  .obj [("cpu_cores", .num r.cores.toNat), ("memory_mb", .num r.memory.toNat)]

def Vm.toJson (vm : Vm) : Json :=
  .obj [
    ("id", vm.id.toJson),
    ("uuid", .str vm.token),
    ("name", .str vm.name),
    ("state", .str (toString vm.state)),
    ("host_id", .option Id.toJson vm.host),
    ("last_host_id", .option Id.toJson vm.lastHost),
    ("update_count", .num vm.version.toNat),
    ("vm_type", .str (toString vm.role)),
    ("dynamically_scalable", .bool vm.scalable),
    ("update_parameters_pending", .bool vm.credentialsPending),
    ("account_id", vm.account.toJson),
    ("zone_id", vm.zone.toJson),
    ("pod_id", .option Id.toJson vm.pod),
    ("hypervisor", .str vm.hypervisor),
    ("resources", vm.resources.toJson)]

def Host.toJson (host : Host) : Json :=
  .obj [
    ("id", host.id.toJson),
    ("name", .str host.name),
    ("zone_id", host.zone.toJson),
    ("pod_id", host.pod.toJson),
    ("cluster_id", host.cluster.toJson),
    ("status", .str (toString host.status)),
    ("enabled", .bool host.enabled),
    ("max_guests", .num host.maxGuests.toNat),
    ("capabilities", .arr (host.capabilities.map .str))]

def Pool.toJson (pool : Pool) : Json :=
  .obj [
    ("id", pool.id.toJson),
    ("name", .str pool.name),
    ("scope", .str (toString pool.scope)),
    ("path", .str pool.path),
    ("pod_id", .option Id.toJson pool.pod),
    ("cluster_id", .option Id.toJson pool.cluster)]

def Volume.toJson (volume : Volume) : Json :=
  .obj [
    ("id", volume.id.toJson),
    ("vm_id", .option Id.toJson volume.vm),
    ("name", .str volume.name),
    ("pool_id", volume.pool.toJson),
    ("last_pool_id", .option Id.toJson volume.lastPool),
    ("path", .str volume.path),
    ("folder", .option .str volume.folder),
    ("pod_id", .option Id.toJson volume.pod),
    ("use_local_storage", .bool volume.wantsLocal)]

def Plan.toJson (plan : Plan) : Json :=
  .obj [
    ("vm_id", plan.vm.toJson),
    ("source_host_id", plan.source.toJson),
    ("destination_host_id", plan.destination.toJson),
    ("volume_to_pool",
      .obj (plan.volumes.rows.map fun r => (toString r.volume, r.pool.toJson))),
    ("cross_cluster", .bool plan.crossCluster)]

def Work.Item.toJson (item : Work.Item) : Json :=
  .obj [
    ("id", .str (toString item.id)),
    ("vm_id", item.vm.toJson),
    ("owner_node_id", item.owner.toJson),
    ("step", .str (toString item.step)),
    ("operation", .str (toString item.operation)),
    ("plan", .option Plan.toJson item.plan),
    ("created_at", .str item.created.write),
    ("updated_at", .str item.updated.write)]

end ControlPlane
