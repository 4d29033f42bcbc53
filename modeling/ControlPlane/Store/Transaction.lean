import ControlPlane.Store.Items
import ControlPlane.Store.Usages
import ControlPlane.Store.Vms
import ControlPlane.Store.Volumes

/-! Transactions: what is done to the store in one step, which nothing can come in between. -/

namespace ControlPlane

inductive Transaction where
  | vm (id : VmId)
  | host (id : HostId)
  | pool (id : PoolId)
  | volumesOf (vm : VmId)
  | guestsOn (host : HostId)
  | openItems (owner : NodeId)
  | swap (update : StateUpdate)
  | setResources (vm : VmId) (resources : Resources)
  | setCredentialsPending (vm : VmId) (pending : Bool)
  | moveVolumes (moves : List VolumeMove)
  | openItem (item : Work.Item)
  | closeItem (item : Work.Item) (step : Work.Step) (now : Timestamp)
  | planItem (item : Work.Item) (plan : Plan) (now : Timestamp)
  | recoverItem (id : Uuid) (step : Work.Step) (now : Timestamp)
  | charge (account : AccountId) (delta : Resources)
  | credit (account : AccountId) (delta : Resources)

namespace Transaction

abbrev Reply : Transaction → Type
  | vm _ => Option Vm
  | host _ => Option Host
  | pool _ => Option Pool
  | volumesOf _ => List Volume
  | guestsOn _ => Nat
  | openItems _ => List Work.Item
  | swap _ => Except Failure (Option Vm)
  | setResources .. | setCredentialsPending .. | moveVolumes _ | openItem _ => Except Failure Unit
  | recoverItem .. => Bool
  | closeItem .. | planItem .. | charge .. | credit .. => Unit

/-- The reply to a transaction, and the store that it leaves. -/
def apply (s : Store) : (t : Transaction) → t.Reply × Store
  | vm id => (s.vm? id, s)
  | host id => (s.host? id, s)
  | pool id => (s.pool? id, s)
  | volumesOf id => (s.volumesOf id, s)
  | guestsOn id => (s.guestsOn id, s)
  | openItems owner => (s.openItems owner, s)
  | swap update => s.swap update
  | setResources id resources => s.setResources id resources
  | setCredentialsPending id pending => s.setCredentialsPending id pending
  | moveVolumes moves => s.moveVolumes moves
  | openItem item => s.openItem item
  | closeItem item step now => ((), s.closeItem item step now)
  | planItem item plan now => ((), s.planItem item plan now)
  | recoverItem id step now => s.recoverItem id step now
  | charge account delta => ((), s.charge account delta)
  | credit account delta => ((), s.credit account delta)

end Transaction
end ControlPlane
