import ControlPlane.Codec.Record
import ControlPlane.Store.Basic

/-! The encoding of a whole store: its tables in order, behind a mark by which other files are told
apart. The file format is one of this library's own. A control plane in service keeps its tables in
a redb database, which is not read here: what the two have in common is the encoding of the
records. -/

namespace ControlPlane.Codec

def slot : Codec Work.Slot :=
  ((id .vm).pair uuid).along (fun s => (s.vm, s.item)) fun (vm, item) => ⟨vm, item⟩

def usage : Codec Usage :=
  ((id .account).pair resources).along (fun u => (u.account, u.resources))
    fun (account, resources) => ⟨account, resources⟩

def tables : Codec Store :=
  Codec.along
    (pair (table vm) <| pair (table host) <| pair (table pool) <| pair (table volume) <|
      pair (table workItem) <| pair (table slot) (table usage))
    (fun s => (s.vms, s.hosts, s.pools, s.volumes, s.work, s.active, s.usage))
    fun (vms, hosts, pools, volumes, work, active, usage) =>
      ⟨vms, hosts, pools, volumes, work, active, usage⟩

def mark : String := "control plane store"

def store : Codec Store :=
  (text.pair tables).along? (fun s => (mark, s)) fun (found, s) =>
    if found = mark then some s else none

end ControlPlane.Codec
