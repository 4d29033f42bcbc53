import ControlPlane.Migration.Record

/-! The recovery scan. It looks at the open items of its node, asks the hosts what has become of the
machines, and takes every machine to the stable state that the answers call for. An item is closed
once, and only when the truth is known and written down. -/

namespace ControlPlane.Recovery
open Control Procedure Operation

/-- What became of the items that a scan has looked at. -/
structure Report where
  /-- Closed, because the machine has been settled. -/
  resolved : List Uuid := []
  /-- Left open for the next scan. -/
  deferred : List Uuid := []
  /-- Closed, because there is no such machine. -/
  failed : List Uuid := []
deriving DecidableEq, Repr

namespace Report

def append (a b : Report) : Report :=
  ⟨a.resolved ++ b.resolved, a.deferred ++ b.deferred, a.failed ++ b.failed⟩

end Report

/-- Whether an item can be closed. -/
inductive Decision where
  | resolved | deferred
deriving DecidableEq, Repr

/-- A power state, if the host has answered and knows it. -/
def known? : Except Failure PowerState → Option PowerState
  | .ok .on => some .on
  | .ok .off => some .off
  | _ => none

/-- Moves a machine by what its hosts report. -/
def report (vm : Vm) (event : Event) (host : Option HostId) : Procedure Unit := do
  let _ ← Transition.run
    { vm := vm.id, expected := vm.state, event := event, host := host
      version := some vm.version }

/-- Settles a machine that was about to start or to stop: its host knows whether it has power. -/
def settleTransient (ctx : Context) (vm : Vm) : Procedure Decision := do
  match vm.host with
  | none => throw (.fault (.transientWithoutHost vm.id vm.state))
  | some host =>
    match known? (← ExceptT.lift (Agent.powerState host vm.token ctx.probeWait)) with
    | some .on =>
      report vm .agentReportsRunning none
      return .resolved
    | some .off =>
      report vm .agentReportsStopped none
      return .resolved
    | _ => return .deferred

/-- The moves of the volumes in a plan. -/
def movesOf (plan : Plan) : List VolumeMove :=
  plan.volumes.rows.map fun relocation => ⟨relocation.volume, relocation.pool, none⟩

/-- Settles a machine whose migration broke off: both hosts tell whether it runs there. -/
def settleMigration (ctx : Context) (vm : Vm) (plan : Plan) : Procedure Decision := do
  let (source, destination) ←
    ExceptT.lift (Agent.powerStates plan.source plan.destination vm.token ctx.probeWait)
  match known? source, known? destination with
  | some .off, some .on | none, some .on =>
    if vm.host = some plan.destination then return .resolved
    if plan.MovesStorage then demand (.transact (.moveVolumes (movesOf plan))) rfl
    report vm .agentReportsRunning (some plan.destination)
    return .resolved
  | some .on, _ =>
    if vm.state = .running ∧ vm.host = some plan.source then return .resolved
    report vm .agentReportsRunning (some plan.source)
    return .resolved
  | some .off, some .off =>
    report vm .agentReportsStopped none
    return .resolved
  | _, _ => return .deferred

/-- Settles a machine whose operation is gone. -/
def settle (ctx : Context) (item : Work.Item) (vm : Vm) : Procedure Decision :=
  match item.plan, vm.state with
  | some plan, .migrating | some plan, .running => settleMigration ctx vm plan
  | _, .starting | _, .stopping | _, .migrating => settleTransient ctx vm
  | _, _ => return .resolved

/-- Settles the machine of an item whose lock is held, and closes the item if that can be done. -/
def resolve (ctx : Context) (item : Work.Item) : Procedure Report := do
  match ← transact (.vm item.vm) with
  | none =>
    if ← Work.closeRecovered item .error then return { failed := [item.id] } else return {}
  | some vm =>
    match ← ExceptT.lift (settle ctx item vm).run with
    | .ok .resolved =>
      if ← Work.closeRecovered item .done then return { resolved := [item.id] } else return {}
    | .ok .deferred | .error _ => return { deferred := [item.id] }

/-- Looks at one item. A machine that others are busy with is left for the next scan. -/
def visit (ctx : Context) (item : Work.Item) : Procedure Report := do
  match ← ExceptT.lift (Work.lock ctx.node item.vm).run with
  | .error _ => return { deferred := [item.id] }
  | .ok () =>
    let report ← Work.orUnlock ctx.node item.vm (resolve ctx item)
    ask (.unlock (Work.lockName ctx.node item.vm) .plain)
    return report

/-- Looks at items one after the other. -/
def visitAll (ctx : Context) : List Work.Item → Procedure Report
  | [] => return {}
  | item :: items => do
    let report ← visit ctx item
    return report.append (← visitAll ctx items)

/-- Looks at all items of the node that are open when the scan begins, the oldest first. -/
def scan (ctx : Context) : Procedure Report := do
  visitAll ctx (← transact (.openItems ctx.node.id))

end ControlPlane.Recovery
