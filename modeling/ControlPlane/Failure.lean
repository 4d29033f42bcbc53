import ControlPlane.Inventory
import ControlPlane.Span.Basic
import ControlPlane.Uuid
import ControlPlane.Vm

/-! Failures: what can go wrong, as causes. Callers decide by the kind of a failure whether to try
again, to undo or to reconcile; the wording stands in one function and is for readers only. -/

namespace ControlPlane

/-- The kinds of failure that callers tell apart. -/
inductive FailureKind where
  | invalidTransition | conflict | agentUnavailable | timeout | resourceUnavailable | fault
deriving DecidableEq, Repr

instance : Enumeration FailureKind where
  all := [.invalidTransition, .conflict, .agentUnavailable, .timeout, .resourceUnavailable, .fault]
  name
    | .invalidTransition => "InvalidStateTransition"
    | .conflict => "ConcurrencyConflict"
    | .agentUnavailable => "AgentUnavailable"
    | .timeout => "OperationTimeout"
    | .resourceUnavailable => "ResourceUnavailable"
    | .fault => "RuntimeFault"
  mem_all a := by cases a <;> decide

namespace FailureKind

/-- The command may or may not have taken effect. -/
def Ambiguous (k : FailureKind) : Prop := k = agentUnavailable ∨ k = timeout

instance (k : FailureKind) : Decidable k.Ambiguous := by unfold Ambiguous; infer_instance

/-- The whole operation may be tried again on what is then recorded. -/
def Retryable (k : FailureKind) : Prop := k = conflict

instance (k : FailureKind) : Decidable k.Retryable := by unfold Retryable; infer_instance

end FailureKind

/-- How two operations on one machine got into each other's way. -/
inductive Conflict where
  | versionMoved (expected actual : UInt64)
  | changedDuring (event : Event)
  | lockHeld (wait : Span)
  | workOpen (item : Uuid)
  | elsewhere (host : Option HostId) (source : HostId)
  | other (details : String)
deriving DecidableEq, Repr

/-- How the connection to a host was lost. -/
inductive Loss where
  | noSession (command : String)
  | sessionClosed
  | requestDropped
  | other (details : String)
deriving DecidableEq, Repr

/-- A record that is not there. -/
inductive Missing where
  | vm (id : VmId)
  | host (id : HostId)
  | pool (id : PoolId)
  | volume (id : VolumeId)
  | other (resource : String)
deriving DecidableEq, Repr

/-- What an operation would need and cannot have. -/
inductive Shortage where
  | noStartHost (vm : VmId)
  | alreadyThere (vm : VmId) (host : HostId)
  | unreachable (host : HostId)
  | unschedulable (host : HostId) (status : HostStatus) (enabled : Bool)
  | incapable (host : HostId) (hypervisor : String)
  | guestLimit (host : HostId) (guests : Nat) (limit : UInt32)
  | noCandidate (vm : VmId) (excluded : Nat)
  | attemptsSpent (vm : VmId) (attempts : Nat)
  | snapshotPending (vm : VmId)
  | storageClass (volume : VolumeId) (wantsLocal : Bool) (pool : PoolId) (isLocal : Bool)
  | poolUnreachable (pool : PoolId) (host : HostId)
  | leftOnLocalPool (volume : VolumeId) (pool : PoolId)
  | notScalable (vm : VmId)
  | noGrowth (vm : VmId) (current requested : Resources)
  | other (resource message : String)
deriving DecidableEq, Repr

/-- A broken assumption. -/
inductive Fault where
  | vmNotFound (vm : VmId)
  | vmExists (vm : VmId)
  | entersWithoutHost (vm : VmId) (next : State)
  | runsWithoutHost (vm : VmId)
  | transientWithoutHost (vm : VmId) (state : State)
  | noGuru (role : Role)
  | undecodable (command : String) (host : HostId)
  | foreignVolumes (vm : VmId)
  | injected (point : String)
  | other (message : String)
deriving DecidableEq, Repr

/-- What is wrong with a configuration. -/
inductive ConfigFault where
  | malformed
  | invalidVariable (name : String)
  | nodeIdZero | channelDepthZero | agentWaitZero | startRetriesZero | maxRetriesZero
  | lockWaitZero | scanIntervalZero
  | other (message : String)
deriving DecidableEq, Repr

/-- What the storage below reported. -/
inductive StorageFault where
  | operation (name : String)
  | engine (details : String)
  | transaction (details : String)
  | table (details : String)
  | undecodable (details : String)
  | io (details : String)
deriving DecidableEq, Repr

inductive Failure where
  | invalidTransition (vm : VmId) (expected actual : State) (event : Event)
  | invalidState (vm : VmId) (operation : String) (expected : List State) (actual : State)
  | conflict (vm : VmId) (cause : Conflict)
  | agentUnavailable (host : HostId) (cause : Loss)
  | timedOut (host : HostId) (operation : String) (wait : Span)
  | commandFailed (host : HostId) (command details : String)
  | unavailable (cause : Shortage)
  /-- No attempt to start a machine came through; the last one failed for the given cause. -/
  | startFailed (vm : VmId) (last : Failure)
  | fault (cause : Fault)
  | unreconciled (vm : VmId) (details : String)
  /-- The last phase of a migration failed, and the hosts report where the machine has power. -/
  | splitMigration (vm : VmId) (cause : Failure) (source destination : Option PowerState)
  /-- A migration made for a scale-up ended with an unknown outcome. -/
  | unplacedScale (vm : VmId) (cause : Failure)
  | notFound (what : Missing)
  | config (cause : ConfigFault)
  | storage (cause : StorageFault)
deriving DecidableEq, Repr

/-- An optional value as messages show it. -/
def describeOption {α : Type} (describe : α → String) : Option α → String
  | none => "None"
  | some a => s!"Some({describe a})"

/-- Messages name a work item through `name`. -/
def Conflict.message (name : Uuid → String) : Conflict → String
  | versionMoved expected actual => s!"update count moved from {expected} to {actual}"
  | changedDuring event => s!"record changed while applying {event}"
  | lockHeld wait => s!"another operation holds the VM lock after {wait}"
  | workOpen item => s!"work item {name item} is still in progress"
  | elsewhere host source =>
    let host := describeOption (fun h => s!"HostId({h})") host
    s!"VM runs on host {host}, not on source host {source}"
  | other details => details

def Loss.message : Loss → String
  | noSession command => s!"no session for {command}"
  | sessionClosed => "session closed"
  | requestDropped => "agent dropped the request"
  | other details => details

def Missing.message : Missing → String
  | vm id => s!"VM {id}"
  | host id => s!"host {id}"
  | pool id => s!"storage pool {id}"
  | volume id => s!"volume {id}"
  | other resource => resource

/-- What is short. -/
def Shortage.resource : Shortage → String
  | noStartHost _ | alreadyThere .. | unreachable _ | unschedulable .. | incapable ..
  | guestLimit .. | noCandidate .. | attemptsSpent .. => "host"
  | snapshotPending _ => "vm snapshot"
  | storageClass .. | poolUnreachable .. | leftOnLocalPool .. => "storage pool"
  | notScalable _ => "vm"
  | noGrowth .. => "compute offering"
  | other resource _ => resource

def Shortage.message : Shortage → String
  | noStartHost vm => s!"unable to start VM {vm}: no candidate host"
  | alreadyThere vm host => s!"VM {vm} already runs on host {host}"
  | unreachable host => s!"host {host} is not reachable"
  | unschedulable host status enabled => s!"host {host} is {status} (enabled: {enabled})"
  | incapable host hypervisor => s!"host {host} does not run {hypervisor} guests"
  | guestLimit host guests limit => s!"host {host} is at its guest limit ({guests}/{limit})"
  | noCandidate vm excluded => s!"no candidate host for VM {vm} outside {excluded} excluded"
  | attemptsSpent vm attempts => s!"placement for VM {vm} failed after {attempts} attempts"
  | snapshotPending vm => s!"VM {vm} has a pending snapshot task"
  | storageClass volume wantsLocal pool isLocal =>
    let wanted := if wantsLocal then "local" else "shared"
    let given := if isLocal then "local" else "shared"
    s!"volume {volume} needs {wanted} storage but pool {pool} is {given}"
  | poolUnreachable pool host => s!"pool {pool} is not reachable from host {host}"
  | leftOnLocalPool volume pool =>
    s!"volume {volume} sits on local pool {pool} and is not being migrated"
  | notScalable vm => s!"VM {vm} is not dynamically scalable"
  | noGrowth vm current requested =>
    s!"VM {vm} can only scale up from {current}, requested {requested}"
  | other _ message => message

def Fault.message : Fault → String
  | vmNotFound vm => s!"VM {vm} not found"
  | vmExists vm => s!"VM {vm} already exists"
  | entersWithoutHost vm next => s!"VM {vm} entering {next} without a host"
  | runsWithoutHost vm => s!"running VM {vm} has no host"
  | transientWithoutHost vm state => s!"VM {vm} in {state} has no host"
  | noGuru role => s!"no guru registered for {role}"
  | undecodable command host => s!"undecodable {command} answer from host {host}"
  | foreignVolumes vm => s!"volume map names volumes not attached to VM {vm}"
  | injected point => s!"Failpoint triggered: {point}"
  | other message => message

def ConfigFault.message : ConfigFault → String
  | malformed => "TOML parse error"
  | invalidVariable name => s!"Invalid {name}"
  | nodeIdZero => "node_id must be non-zero"
  | channelDepthZero => "agent.channel_depth must be at least 1"
  | agentWaitZero => "agent wait budgets must be non-zero"
  | startRetriesZero => "orchestrator.start_retries must be at least 1"
  | maxRetriesZero => "placement.max_retries must be at least 1"
  | lockWaitZero => "work.lock_wait must be non-zero"
  | scanIntervalZero => "recovery.scan_interval must be non-zero when recovery is enabled"
  | other message => message

def StorageFault.message : StorageFault → String
  | operation name => s!"Storage operation '{name}' failed"
  | engine details => s!"Storage error: {details}"
  | transaction details => s!"Storage transaction error: {details}"
  | table details => s!"Storage table error: {details}"
  | undecodable details => s!"Serialization error: {details}"
  | io details => s!"IO error: {details}"

namespace Failure

def kind : Failure → FailureKind
  | invalidTransition .. | invalidState .. => .invalidTransition
  | conflict .. => .conflict
  | agentUnavailable .. => .agentUnavailable
  | timedOut .. => .timeout
  | unavailable _ | startFailed .. => .resourceUnavailable
  | commandFailed .. | fault _ | unreconciled .. | splitMigration .. | unplacedScale ..
  | notFound _ | config _ | storage _ => .fault

/-- The machine may have moved, and somebody has to find out whether it has. -/
def NeedsReconciliation : Failure → Prop
  | unreconciled .. | splitMigration .. | unplacedScale .. => True
  | _ => False

instance (f : Failure) : Decidable f.NeedsReconciliation := by
  cases f <;> unfold NeedsReconciliation <;> infer_instance

/-- The wording of a failure, in which work items are named through `name`. -/
def messageWith (name : Uuid → String) : Failure → String
  | invalidTransition vm expected actual event =>
    s!"Invalid state transition for VM {vm}: event {event} from {actual} (expected {expected})"
  | invalidState vm operation expected actual =>
    let expected := ", ".intercalate (expected.map toString)
    s!"VM {vm} is {actual} but {operation} requires one of [{expected}]"
  | conflict vm cause => s!"Concurrent operation on VM {vm}: {cause.message name}"
  | agentUnavailable host cause => s!"Agent unavailable on host {host}: {cause.message}"
  | timedOut host operation wait =>
    s!"Operation '{operation}' on host {host} timed out after {wait}"
  | commandFailed host command details => s!"Command {command} failed on host {host}: {details}"
  | unavailable cause => s!"Resource unavailable: {cause.resource} - {cause.message}"
  | startFailed vm last =>
    s!"Resource unavailable: host - unable to start VM {vm}: {last.messageWith name}"
  | fault cause => s!"Runtime fault: {cause.message}"
  | unreconciled vm details => s!"VM {vm} needs reconciliation: {details}"
  | splitMigration vm cause source destination =>
    let cause := cause.messageWith name
    let source := describeOption toString source
    let destination := describeOption toString destination
    s!"VM {vm} needs reconciliation: complete phase failed ({cause}); source {source}, " ++
      s!"destination {destination}"
  | unplacedScale vm cause =>
    let cause := cause.messageWith name
    s!"VM {vm} needs reconciliation: migration for scale-up left VM unplaced: {cause}"
  | notFound what => s!"Resource not found: {what.message}"
  | config cause => s!"Configuration error: {cause.message}"
  | storage cause => cause.message

def message (f : Failure) : String := f.messageWith toString

end Failure
end ControlPlane
