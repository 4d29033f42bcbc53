import ControlPlane.Operation.Local
import ControlPlane.Operation.Migrate
import ControlPlane.Operation.Scale
import ControlPlane.Operation.Stop
import ControlPlane.Simulation.Activity

/-! Orders to a simulated control plane: what its users and operators do, and what happens around
it. Work items are named by their numbers, counted from one in the order in which they were
begun. -/

namespace ControlPlane.Simulation
open Control Procedure

/-- How work ends that was begun by hand. -/
inductive Closing where
  | finish (step : Work.Step)
  /-- The item stays open for the recovery scan. -/
  | abandon
  /-- Its owner is gone without a word. -/
  | drop
deriving DecidableEq, Repr

inductive Order where
  | addHost (host : Host)
  | putHost (host : Host)
  | putPool (pool : Pool)
  | putVolume (volume : Volume)
  | addVm (vm : Vm)
  | placeRunning (vm : VmId) (host : HostId)
  | connect (host : HostId)
  | disconnect (host : HostId)
  | script (cue : Cue)
  | power (host : HostId) (state : PowerState)
  | candidates (hosts : List HostId)
  | deny (host : HostId)
  | refuseStart (on : Bool)
  | snapshotPending (vm : VmId)
  | failNext (callee : Callee) (failure : Failure)
  | start (vm : VmId)
  | stop (vm : VmId) (force : Bool)
  | migrate (request : Migration.Request)
  | scale (vm : VmId) (resources : Resources)
  | destroy (vm : VmId)
  | recover (vm : VmId)
  | expunge (vm : VmId)
  | scan
  /-- Has a scanner look at the open items again and again, for some milliseconds. -/
  | scanPeriodically (enabled : Bool) (interval millis : Nat)
  | probe (host : HostId) (token : String)
  | transition (t : Transition)
  /-- A transition of which only the new state is reported. -/
  | apply (t : Transition)
  | swap (update : StateUpdate)
  | getVm (vm : VmId)
  | loadVm (vm : VmId)
  | listVms
  | countOnHost (host : HostId)
  | setResources (vm : VmId) (resources : Resources)
  | setPending (vm : VmId) (pending : Bool)
  /-- Begins work, in the ledger of a node. -/
  | beginWork (vm : VmId) (operation : Work.Operation) (plan : Option Plan) (node : Option NodeId)
  | closeWork (work : Nat) (how : Closing)
  | recordPlan (work : Nat) (plan : Plan)
  | closeRecovered (work : Nat) (step : Work.Step)
  /-- Takes the lock of a machine, and keeps it under a name. -/
  | lock (name : String) (vm : VmId) (node : Option NodeId)
  | unlock (name : String)
  | getWork (work : Nat)
  | listWork
  | listOpen (node : Option NodeId)
  | getHost (host : HostId)
  | loadHost (host : HostId)
  | listHosts
  | getPool (pool : PoolId)
  | loadPool (pool : PoolId)
  | getVolume (volume : VolumeId)
  | volumesOf (vm : VmId)
  | moveVolumes (moves : List VolumeMove)
  | charge (account : AccountId) (delta : Resources)
  | credit (account : AccountId) (delta : Resources)
  | usage (account : AccountId)
  /-- The commands that have reached a host, without the questions for power states. -/
  | operations
  | dispatches
  | countOf (kind : String)
  | clearDispatches
  /-- An order during which a point fails, but for the first few times. -/
  | withFailure (point : Option Point) (skip : Nat) (order : Order)
  /-- An order during which somebody else tries a conditional update before every one of its own. -/
  | withRival (update : StateUpdate) (order : Order)
  | together (orders : List Order)
  | sleep (millis : Nat)
  | restart

namespace Activity

/-- A change of the world that cannot fail. -/
def change (f : World → World) : Activity := act fun w => (.ok .nothing, f w)

def look (f : World → Value) : Activity := act fun w => (.ok (f w), w)

/-- A look at the store. -/
def read (f : Store → Value) : Activity := look fun w => f w.store

/-- A step in the store. -/
def inStore {α : Type} (write : α → Value) (f : Store → Except Failure α × Store) :
    Activity :=
  act fun w =>
    let (result, store) := f w.store
    (result.map write, { w with store := store })

/-- An action, whose result is reported. -/
def doing {α : Type} (write : α → Value) (action : World → Procedure α) : Activity :=
  launch (fun w => (write <$> action w).run) .nothing

/-- A change of what an account uses, and a look at it. -/
def usageAfter (account : AccountId) (f : Store → Store) : Activity :=
  act fun w =>
    let store := f w.store
    (.ok (.resources (store.usageOf account)), { w with store := store }.noteAccount account)

def dispatched (log : List (HostId × String)) : Value :=
  .list (log.map fun (host, kind) => .dispatch host kind)

/-- An operation in the context of the configuration. -/
def operating {α : Type} (write : α → Value) (operation : Operation.Context → Procedure α) :
    Activity :=
  doing write fun w => operation w.context

end Activity

/-- The work that was begun by hand under a number. -/
def handleAt (w : World) (number : Nat) : Except Failure Handle :=
  match w.handleAt? number with
  | some handle => .ok handle
  | none => .error (.notFound (.other s!"work item {number}"))

/-- Ends work that was begun by hand. -/
def closing (handle : Handle) : Closing → Procedure Unit
  | .finish step => Work.finish handle.node handle.item step
  | .abandon => Work.abandon handle.node handle.item
  | .drop => ask (.unlock (Work.lockName handle.node handle.item.vm) .plain)

/-- Places a stopped machine on a host, where it runs. -/
def placing (vm : VmId) (host : HostId) : Procedure Vm := do
  let _ ← Transition.run
    { vm := vm, expected := .stopped, event := .startRequested, host := some host }
  Transition.run { vm := vm, expected := .starting, event := .operationSucceeded }

/-- Asks a host for the power state of a machine. -/
def probing (w : World) (host : HostId) (token : String) : Procedure PowerState :=
  show Program surroundings (Except Failure PowerState) from
    Agent.powerState host token w.context.probeWait

namespace Order
open Activity

mutual

/-- What is done on an order. -/
def activity : Order → Activity
  | addHost host => change fun w => { w with store := w.store.putHost host }.connect host.id
  | putHost host => change fun w => { w with store := w.store.putHost host }
  | putPool pool => change fun w => { w with store := w.store.putPool pool }
  | putVolume volume => change fun w =>
    { w with store := w.store.putVolume volume, volumes := w.volumes.insert volume.id }
  | addVm vm => act fun w =>
    let (result, store) := w.store.register vm
    (result.map fun _ => .nothing, { w with store := store }.noteAccount vm.account)
  | placeRunning vm host => doing .vm fun _ => placing vm host
  | connect host => change (·.connect host)
  | disconnect host => change fun w => { w with registry := w.registry.disconnect host }
  | script cue => change fun w => { w with fleet.cues := w.fleet.cues ++ [cue] }
  | power host state => change fun w => { w with fleet := w.fleet.setPower host state }
  | candidates hosts => change fun w => { w with candidates := hosts }
  | deny host => change fun w => { w with denied := w.denied ++ [host] }
  | refuseStart on => change fun w => { w with refuseStart := on }
  | snapshotPending vm => change fun w => { w with snapshots := w.snapshots ++ [vm] }
  | failNext callee failure => change fun w => { w with faults := w.faults ++ [(callee, failure)] }
  | start vm => operating .vm (Operation.start · vm)
  | stop vm force => operating .vm (Operation.stop · vm force)
  | migrate request => operating .vm (Operation.migrate · request)
  | scale vm resources => operating .vm (Operation.scale · vm resources)
  | destroy vm => operating .state (Operation.destroy · vm)
  | recover vm => operating .state (Operation.recover · vm)
  | expunge vm => operating .state (Operation.expunge · vm)
  | scan => operating .report Recovery.scan
  | scanPeriodically enabled interval millis =>
    if enabled then scanFor millis interval else look fun _ => .flag false
  | probe host token => doing .power fun w => probing w host token
  | transition t => doing .vm fun _ => t.run
  | apply t => doing (fun vm => .state vm.state) fun _ => t.run
  | swap update => inStore (.ofOption .vm) fun s => s.swap update
  | getVm vm => read fun s => .ofOption .vm (s.vm? vm)
  | loadVm vm => doing .vm fun _ => Procedure.loadVm vm
  | listVms => read fun s => .list (s.vms.rows.map .vm)
  | countOnHost host => read fun s => .count (s.guestsOn host)
  | setResources vm resources => inStore .ofUnit fun s => s.setResources vm resources
  | setPending vm pending => inStore .ofUnit fun s => s.setCredentialsPending vm pending
  | beginWork vm operation plan node =>
    launch (fun w => (.item <$> Work.start (w.node node) vm operation plan : Procedure Value).run)
      (.handle node)
  | closeWork number how =>
    launch (fun w => (do
      closing (← handleAt w number) how
      return .nothing : Procedure Value).run) (.noHandle number)
  | recordPlan number plan => doing .ofUnit fun w => do
    Work.recordPlan (← handleAt w number).item plan
  | closeRecovered number step => doing .flag fun w =>
    match w.itemAt? number with
    | some item => Work.closeRecovered item step
    | none => return false
  | lock name vm node =>
    launch (fun w => (Value.ofUnit <$> Work.lock (w.node node) vm : Procedure Value).run)
      (.guard name vm node)
  | unlock name => act fun w => (.ok (.flag (w.guards.lookup name).isSome), w.dropGuard name)
  | getWork number => look fun w => .ofOption .item (w.itemAt? number)
  | listWork => read fun s => .list (s.items.map .item)
  | listOpen node => look fun w =>
    .list ((w.store.openItems (w.node node).id).map fun item => .label item.id)
  | getHost host => read fun s => .ofOption .host (s.host? host)
  | loadHost host => doing .host fun _ => Procedure.loadHost host
  | listHosts => read fun s => .list (s.hosts.rows.map .host)
  | getPool pool => read fun s => .ofOption .pool (s.pool? pool)
  | loadPool pool => doing .pool fun _ => Procedure.loadPool pool
  | getVolume volume => read fun s => .ofOption .volume (s.volume? volume)
  | volumesOf vm => read fun s => .list ((s.volumesOf vm).map .volume)
  | moveVolumes moves => inStore .ofUnit fun s => s.moveVolumes moves
  | charge account delta => usageAfter account (·.charge account delta)
  | credit account delta => usageAfter account (·.credit account delta)
  | usage account => usageAfter account id
  | operations => look fun w => dispatched w.fleet.operations
  | dispatches => look fun w => dispatched w.fleet.log
  | countOf kind => look fun w => .count (w.fleet.log.filter (·.2 = kind)).length
  | clearDispatches => change fun w => { w with fleet.log := [] }
  | withFailure point skip order => hooked point (.fail skip) order.activity
  | withRival update order => hooked (some .beforeSwap) (.rival update) order.activity
  | together orders => all (activities orders)
  | sleep millis => pause millis
  | restart => change (·.restart)

def activities : List Order → List Activity
  | [] => []
  | order :: orders => order.activity :: activities orders

end

end Order

namespace World

/-- Carries out an order, and gives what it has come to. -/
def obey (w : World) (order : Order) : Result × World := settle patience order.activity w

/-- The commands that were sent since somebody last asked for them, in order. -/
def takeSent (w : World) : List Agent.Envelope × World := (w.sent.reverse, { w with sent := [] })

end World
end ControlPlane.Simulation
