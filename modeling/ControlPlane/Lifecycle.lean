import ControlPlane.Enumeration

/-! The lifecycle of a virtual machine: its states, the events that move it, and the table of the
moves that are legal. -/

namespace ControlPlane

inductive State where
  | creating | starting | running | stopping | stopped | migrating | expunging | destroyed | error
deriving DecidableEq, Repr

inductive Event where
  | startRequested | operationSucceeded | operationFailed | stopRequested | migrationRequested
  | destroyRequested | expungeRequested | agentReportsRunning | agentReportsStopped
  | recoveryRequested | operationFailedToError
deriving DecidableEq, Repr

instance : Enumeration State where
  all := [.creating, .starting, .running, .stopping, .stopped, .migrating, .expunging,
    .destroyed, .error]
  name
    | .creating => "Creating"
    | .starting => "Starting"
    | .running => "Running"
    | .stopping => "Stopping"
    | .stopped => "Stopped"
    | .migrating => "Migrating"
    | .expunging => "Expunging"
    | .destroyed => "Destroyed"
    | .error => "Error"
  mem_all a := by cases a <;> decide

instance : Enumeration Event where
  all := [.startRequested, .operationSucceeded, .operationFailed, .stopRequested,
    .migrationRequested, .destroyRequested, .expungeRequested, .agentReportsRunning,
    .agentReportsStopped, .recoveryRequested, .operationFailedToError]
  name
    | .startRequested => "StartRequested"
    | .operationSucceeded => "OperationSucceeded"
    | .operationFailed => "OperationFailed"
    | .stopRequested => "StopRequested"
    | .migrationRequested => "MigrationRequested"
    | .destroyRequested => "DestroyRequested"
    | .expungeRequested => "ExpungeRequested"
    | .agentReportsRunning => "AgentReportsRunning"
    | .agentReportsStopped => "AgentReportsStopped"
    | .recoveryRequested => "RecoveryRequested"
    | .operationFailedToError => "OperationFailedToError"
  mem_all a := by cases a <;> decide

instance : ToString State := ⟨Enumeration.name⟩
instance : ToString Event := ⟨Enumeration.name⟩

namespace State

/-- The states in which the machine occupies a host. -/
def HoldsHost (s : State) : Prop :=
  s = starting ∨ s = running ∨ s = stopping ∨ s = migrating

instance (s : State) : Decidable s.HoldsHost := by unfold HoldsHost; infer_instance

/-- The states that an operation passes through and never ends in by itself. -/
def Transient (s : State) : Prop :=
  s = creating ∨ s = starting ∨ s = stopping ∨ s = migrating

instance (s : State) : Decidable s.Transient := by unfold Transient; infer_instance

/-- The state that an event leads to, or `none` where the event is not legal. -/
def next? : State → Event → Option State
  | creating, .operationSucceeded => some stopped
  | creating, .operationFailed => some error
  | creating, .destroyRequested => some destroyed
  | creating, .agentReportsStopped => some stopped
  | creating, .startRequested => some starting
  | stopped, .startRequested => some starting
  | stopped, .stopRequested => some stopped
  | stopped, .destroyRequested => some destroyed
  | stopped, .expungeRequested => some expunging
  | stopped, .agentReportsStopped => some stopped
  | stopped, .operationFailed => some error
  | starting, .operationSucceeded => some running
  | starting, .operationFailed => some stopped
  | starting, .operationFailedToError => some error
  | starting, .agentReportsRunning => some running
  | starting, .agentReportsStopped => some stopped
  | running, .operationSucceeded => some running
  | running, .stopRequested => some stopping
  | running, .migrationRequested => some migrating
  | running, .agentReportsRunning => some running
  | running, .agentReportsStopped => some stopped
  | migrating, .migrationRequested => some migrating
  | migrating, .operationSucceeded => some running
  | migrating, .operationFailed => some running
  | migrating, .operationFailedToError => some error
  | migrating, .agentReportsRunning => some running
  | migrating, .agentReportsStopped => some stopped
  | stopping, .operationSucceeded => some stopped
  | stopping, .operationFailed => some running
  | stopping, .operationFailedToError => some error
  | stopping, .stopRequested => some stopping
  | stopping, .agentReportsRunning => some running
  | stopping, .agentReportsStopped => some stopped
  | destroyed, .recoveryRequested => some stopped
  | destroyed, .expungeRequested => some expunging
  | expunging, .operationFailed => some expunging
  | expunging, .expungeRequested => some expunging
  | error, .destroyRequested => some expunging
  | error, .expungeRequested => some expunging
  | _, _ => none

/-- The state that an event leaves the machine in: an illegal event changes nothing. -/
def after (s : State) (e : Event) : State := (s.next? e).getD s

/-- The legal events of a state, each with the state it leads to. -/
def exits (s : State) : List (Event × State) :=
  (Enumeration.all : List Event).filterMap fun e => (s.next? e).map (e, ·)

/-- The states visited by a run of events, with `none` for each event that was refused. -/
def walk (s : State) : List Event → List (Option State) × State
  | [] => ([], s)
  | e :: es =>
    let (path, last) := walk (s.after e) es
    (s.next? e :: path, last)

end State
end ControlPlane
