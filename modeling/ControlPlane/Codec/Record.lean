import ControlPlane.Codec.Basic
import ControlPlane.Inventory
import ControlPlane.Timestamp.Text
import ControlPlane.Vm
import ControlPlane.Work.Item

/-! The encodings of records: the fields of a record in order. -/

namespace ControlPlane.Codec

def id (e : Entity) : Codec (Id e) := u64.along Id.val Id.mk

/-- One of finitely many values, as the 32-bit index that it has among them. -/
def enumeration (α : Type) [DecidableEq α] [Enumeration α] : Codec α := choice α 4

def resources : Codec Resources :=
  (u32.pair u64).along (fun r => (r.cores, r.memory)) fun (cores, memory) => ⟨cores, memory⟩

/-- The sixteen bytes of an identifier, the highest one first. -/
def uuid : Codec Uuid :=
  bytes.along? (fun u => ((word 16).encode u.toNat).reverse) fun b =>
    if b.length = 16 then some (Uuid.ofNat (ofLittleEndian b.reverse)) else none

/-- Points in time are written as text. -/
def timestamp : Codec Timestamp := text.along? Timestamp.write Timestamp.read?

def vm : Codec Vm :=
  Codec.along
    (pair (id .vm) <| pair text <| pair text <| pair (enumeration State) <|
      pair (option (id .host)) <| pair (option (id .host)) <| pair u64 <|
      pair (enumeration Role) <| pair bool <| pair bool <| pair (id .account) <|
      pair (id .zone) <| pair (option (id .pod)) <| pair text resources)
    (fun v => (v.id, v.token, v.name, v.state, v.host, v.lastHost, v.version, v.role, v.scalable,
      v.credentialsPending, v.account, v.zone, v.pod, v.hypervisor, v.resources))
    fun (id, token, name, state, host, lastHost, version, role, scalable, credentialsPending,
      account, zone, pod, hypervisor, resources) =>
      ⟨id, token, name, state, host, lastHost, version, role, scalable, credentialsPending,
        account, zone, pod, hypervisor, resources⟩

def host : Codec Host :=
  Codec.along
    (pair (id .host) <| pair text <| pair (id .zone) <| pair (id .pod) <| pair (id .cluster) <|
      pair (enumeration HostStatus) <| pair bool <| pair u32 (list text))
    (fun h => (h.id, h.name, h.zone, h.pod, h.cluster, h.status, h.enabled, h.maxGuests,
      h.capabilities))
    fun (id, name, zone, pod, cluster, status, enabled, maxGuests, capabilities) =>
      ⟨id, name, zone, pod, cluster, status, enabled, maxGuests, capabilities⟩

def pool : Codec Pool :=
  Codec.along
    (pair (id .pool) <| pair text <| pair (enumeration PoolScope) <| pair text <|
      pair (option (id .pod)) (option (id .cluster)))
    (fun p => (p.id, p.name, p.scope, p.path, p.pod, p.cluster))
    fun (id, name, scope, path, pod, cluster) => ⟨id, name, scope, path, pod, cluster⟩

def volume : Codec Volume :=
  Codec.along
    (pair (id .volume) <| pair (option (id .vm)) <| pair text <| pair (id .pool) <|
      pair (option (id .pool)) <| pair text <| pair (option text) <|
      pair (option (id .pod)) bool)
    (fun v => (v.id, v.vm, v.name, v.pool, v.lastPool, v.path, v.folder, v.pod, v.wantsLocal))
    fun (id, vm, name, pool, lastPool, path, folder, pod, wantsLocal) =>
      ⟨id, vm, name, pool, lastPool, path, folder, pod, wantsLocal⟩

def relocation : Codec Relocation :=
  ((id .volume).pair (id .pool)).along (fun r => (r.volume, r.pool))
    fun (volume, pool) => ⟨volume, pool⟩

def plan : Codec Plan :=
  Codec.along
    (pair (id .vm) <| pair (id .host) <| pair (id .host) <| pair (table relocation) bool)
    (fun p => (p.vm, p.source, p.destination, p.volumes, p.crossCluster))
    fun (vm, source, destination, volumes, crossCluster) =>
      ⟨vm, source, destination, volumes, crossCluster⟩

def workItem : Codec Work.Item :=
  Codec.along
    (pair uuid <| pair (id .vm) <| pair (id .node) <| pair (enumeration Work.Step) <|
      pair (enumeration Work.Operation) <| pair (option plan) <| pair timestamp timestamp)
    (fun w => (w.id, w.vm, w.owner, w.step, w.operation, w.plan, w.created, w.updated))
    fun (id, vm, owner, step, operation, plan, created, updated) =>
      ⟨id, vm, owner, step, operation, plan, created, updated⟩

end ControlPlane.Codec
