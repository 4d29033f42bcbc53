import ControlPlane.Agent.Envelope
import ControlPlane.Config.Basic
import ControlPlane.Placement.Basic
import ControlPlane.Program
import ControlPlane.Store.Transaction

/-! What an operation of the control plane asks its surroundings: the store, the clock, the locks of
machines, the hosts, the planner, and whoever manages machines of a role. Between two requests an
operation is alone; at every request others may come in between. -/

namespace ControlPlane

/-- Points of an operation that can be made to fail. -/
inductive Point where
  /-- The lock is taken and nothing is written. -/
  | beginWork
  /-- All checks of a transition have passed and nothing is written. -/
  | beforeSwap
  /-- The machine has been sent and not yet been taken over. -/
  | beforeComplete
deriving DecidableEq, Repr

instance : Enumeration Point where
  all := [.beginWork, .beforeSwap, .beforeComplete]
  name
    | .beginWork => "work_ledger::begin_work"
    | .beforeSwap => "state_machine::before_cas"
    | .beforeComplete => "orchestrator::before_complete"
  mem_all a := by cases a <;> decide

/-- How a lock is given back. A tidy release also forgets a lock that nobody waits for. -/
inductive Release where
  | tidy | plain
deriving DecidableEq, Repr

/-- The lock of a machine, in the ledger of a node. -/
structure LockName where
  node : NodeId
  vm : VmId
deriving DecidableEq, Repr

namespace Control

inductive Request where
  | transact (t : Transaction)
  | now
  | freshId
  /-- Takes a lock, or gives up after the wait for locks. -/
  | lock (name : LockName)
  | unlock (name : LockName) (how : Release)
  | pass (point : Point)
  | send (envelope : Agent.Envelope)
  /-- Sends two commands at a time and waits for both. -/
  | sendBoth (first second : Agent.Envelope)
  | isConnected (host : HostId)
  | selectHost (wanted : Placement.Wanted) (excluded : Placement.Exclusions)
  | hasRoom (host : HostId) (delta : Resources)
  | snapshotPending (vm : VmId)
  /-- Whether somebody manages machines of a role. -/
  | hasGuru (role : Role)
  | finalizeStart (vm : Vm) (host : HostId)
  | prepareStop (vm : Vm)
  | finalizeStop (vm : Vm)

abbrev Request.Reply : Request → Type
  | transact t => t.Reply
  | now => Timestamp
  | freshId => Uuid
  | lock _ => Bool
  | unlock .. => Unit
  | pass _ => Except Failure Unit
  | send _ => Except Failure Agent.Answer
  | sendBoth .. => Except Failure Agent.Answer × Except Failure Agent.Answer
  | isConnected _ => Bool
  | selectHost .. => Except Failure (Option HostId)
  | hasRoom .. => Except Failure Bool
  | snapshotPending _ => Except Failure Bool
  | hasGuru _ => Bool
  | finalizeStart .. | prepareStop _ | finalizeStop _ => Except Failure Unit

def surroundings : Interface := ⟨Request, Request.Reply⟩

end Control

/-- A part of an operation, which may fail. -/
abbrev Procedure (α : Type) := ExceptT Failure (Program Control.surroundings) α

namespace Procedure
open Control

/-- Makes a request whose reply is no failure. -/
def ask (r : Request) : Procedure r.Reply :=
  ExceptT.lift (Program.call (I := surroundings) r)

def transact (t : Transaction) : Procedure t.Reply := ask (.transact t)

/-- Makes a request that may fail. -/
def demand {α : Type} (r : Request) (h : r.Reply = Except Failure α) : Procedure α :=
  show Program surroundings (Except Failure α) from h ▸ Program.call (I := surroundings) r

def pass (point : Point) : Procedure Unit := demand (.pass point) rfl

/-- The value that is there, or the failure of a record that is missing. -/
def require {α : Type} (what : Missing) : Option α → Procedure α
  | some a => pure a
  | none => throw (.notFound what)

def loadVm (id : VmId) : Procedure Vm := do require (.vm id) (← transact (.vm id))

def loadHost (id : HostId) : Procedure Host := do require (.host id) (← transact (.host id))

def loadPool (id : PoolId) : Procedure Pool := do require (.pool id) (← transact (.pool id))

end Procedure
end ControlPlane
