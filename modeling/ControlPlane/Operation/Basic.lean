import ControlPlane.Agent.Dispatch
import ControlPlane.Transition
import ControlPlane.Work.Ledger

/-! Operations. Every operation runs under a work item, and how it ends decides what becomes of the
item: done, cancelled before anything was sent, failed with the machine in its last good state, or
left open because nobody knows the outcome. -/

namespace ControlPlane.Operation
open Control

/-- How an operation ends that does not succeed. -/
inductive Ending where
  /-- Nothing was sent or written. -/
  | rejected (failure : Failure)
  /-- The machine is back in its last good state. -/
  | failed (failure : Failure)
  /-- The outcome is unknown. -/
  | unresolved (failure : Failure)
deriving DecidableEq, Repr

def Ending.failure : Ending → Failure
  | rejected f | failed f | unresolved f => f

/-- The body of an operation. -/
abbrev Body (α : Type) := ExceptT Ending (Program surroundings) α

/-- What operations know of their node and its configuration. -/
structure Context where
  node : Node
  waits : Config.Orchestrator
  commandWait : Span
  probeWait : Span
  maxRetries : UInt32
deriving DecidableEq, Repr

def Context.ofConfig (c : Config) : Context where
  node := ⟨c.node, c.work.lockWait⟩
  waits := c.orchestrator
  commandWait := c.agent.commandWait
  probeWait := c.agent.probeWait
  maxRetries := c.placement.maxRetries

/-- The part of an operation before anything is sent: what fails here is rejected. -/
def rejecting {α : Type} (action : Procedure α) : Body α := action.adapt .rejected

/-- A part whose failure leaves the machine in its last good state. -/
def failing {α : Type} (action : Procedure α) : Body α := action.adapt .failed

/-- A part that must not fail: if it does, the machine is left to the recovery scan. -/
def resolving {α : Type} (action : Procedure α) : Body α := action.adapt .unresolved

/-- Runs an action and looks at how it ends. -/
def outcome {α : Type} (action : Procedure α) : Body (Except Failure α) :=
  ExceptT.lift action.run

/-- Closes the work item as the operation ended. -/
def settle {α : Type} (ctx : Context) (item : Work.Item) : Except Ending α → Procedure α
  | .ok a => do
    Work.finish ctx.node item .done
    return a
  | .error (.rejected failure) => do
    Work.finish ctx.node item .cancelled
    throw failure
  | .error (.failed failure) => do
    Work.finish ctx.node item .error
    throw failure
  | .error (.unresolved failure) => do
    Work.abandon ctx.node item
    throw failure

/-- Runs the body of an operation under a work item. -/
def underWork {α : Type} (ctx : Context) (vm : VmId) (operation : Work.Operation)
    (plan : Option Plan) (body : Work.Item → Body α) : Procedure α := do
  let item ← Work.start ctx.node vm operation plan
  settle ctx item (← ExceptT.lift (body item).run)

/-- Fails unless a machine is in one of the states that an operation starts from. -/
def requireState (vm : Vm) (operation : String) (expected : List State) : Except Failure Unit :=
  if vm.state ∈ expected then .ok ()
  else .error (.invalidState vm.id operation expected vm.state)

/-- The host that a running machine is recorded on. -/
def requireHost (vm : Vm) : Except Failure HostId :=
  match vm.host with
  | some host => .ok host
  | none => .error (.fault (.runsWithoutHost vm.id))

/-- What is known of a command that was sent to a host. -/
inductive Resolution where
  | succeeded
  | failed (failure : Failure)
  | unknown (failure : Failure)
deriving DecidableEq, Repr

/-- What the power state of a machine says of a command that was lost: `wanted` is the power state
that the command brings about. -/
def Resolution.ofPower (wanted : PowerState) (lost : Failure) :
    Except Failure PowerState → Resolution
  | .ok .unknown | .error _ => unknown lost
  | .ok power => if power = wanted then succeeded else failed lost

/-- Sends a command that turns a machine on or off. If the outcome is lost, the power state of the
machine tells it. -/
def sendResolved (ctx : Context) (host : HostId) (token : String) (wanted : PowerState)
    (k : Agent.Kind) (body : k.Body) (wait : Span) : Program surroundings Resolution := do
  match ← (Agent.dispatch host k body wait).run with
  | .ok _ => return .succeeded
  | .error failure =>
    if failure.kind.Ambiguous then
      return .ofPower wanted failure (← Agent.powerState host token ctx.probeWait)
    else return .failed failure

end ControlPlane.Operation
