import ControlPlane.Control

/-! Transitions: the only way in which the state, the hosts and the version of a machine change. A
transition is checked against the record and then written on the condition that the record is still
the one that was checked. -/

namespace ControlPlane

/-- A transition that somebody asks for. -/
structure Transition where
  vm : VmId
  expected : State
  event : Event
  /-- The host that the machine occupies afterwards, where that is not the present one. -/
  host : Option HostId := none
  /-- The version that the caller has read, if the transition is pinned to it. -/
  version : Option UInt64 := none
deriving DecidableEq, Repr

namespace Transition

/-- The hosts of a machine after it has moved to a state. A state that holds a host takes the one
that is asked for, or keeps the present one; any other state clears it. The host that is left
becomes the last one. -/
def hosts (vm : Vm) (next : State) (requested : Option HostId) :
    Except Failure (Option HostId × Option HostId) :=
  if next.HoldsHost then
    match requested.or vm.host with
    | none => .error (.fault (.entersWithoutHost vm.id next))
    | some host =>
      .ok (some host, if vm.host = some host then vm.lastHost else vm.host.or vm.lastHost)
  else .ok (none, vm.host.or vm.lastHost)

/-- What to write, or why the transition is refused. -/
def check (t : Transition) (vm : Vm) : Except Failure StateUpdate := do
  let refusal := Failure.invalidTransition t.vm t.expected vm.state t.event
  let version := t.version.getD vm.version
  match t.expected.next? t.event with
  | none => .error refusal
  | some next =>
    if version ≠ vm.version then .error (.conflict t.vm (.versionMoved version vm.version))
    else if vm.state ≠ t.expected then .error refusal
    else
      let (host, lastHost) ← hosts vm next t.host
      .ok ⟨t.vm, t.expected, version, next, host, lastHost⟩

/-- Carries out a transition, and gives the record as written. -/
def run (t : Transition) : Procedure Vm := do
  match ← Procedure.transact (.vm t.vm) with
  | none => throw (.fault (.vmNotFound t.vm))
  | some vm =>
    let update ← t.check vm
    Procedure.pass .beforeSwap
    match ← Procedure.demand (.transact (.swap update)) rfl with
    | some written => return written
    | none => throw (.conflict t.vm (.changedDuring t.event))

end Transition
end ControlPlane
