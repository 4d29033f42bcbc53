import ControlPlane.Control

/-! Sending commands to hosts, and asking a host for the power state of a machine. -/

namespace ControlPlane.Agent
open Control

/-- Sends a command, and reads the reply. A refusal by the host is a failure, and so is an answer
that makes no sense. -/
def dispatch (host : HostId) (k : Kind) (body : k.Body) (wait : Span) : Procedure k.Reply :=
  show Program surroundings (Except Failure k.Reply) from do
    let answer ← Program.call (I := surroundings) (.send (.ofBody host k body wait))
    return k.interpret host answer

/-- The question for the power state of a machine. -/
def probe (host : HostId) (token : String) (wait : Span) : Envelope :=
  .ofBody host .checkState (⟨token⟩ : CheckStateBody) wait

/-- What the answer to that question says. A host that refuses it does not run the machine. -/
def powerOf (host : HostId) (answer : Except Failure Answer) : Except Failure PowerState :=
  match Kind.checkState.interpret host answer with
  | .error (.commandFailed ..) => .ok .off
  | other => other

def powerState (host : HostId) (token : String) (wait : Span) :
    Program surroundings (Except Failure PowerState) := do
  let answer ← Program.call (I := surroundings) (.send (probe host token wait))
  return powerOf host answer

/-- Asks two hosts at a time. -/
def powerStates (first second : HostId) (token : String) (wait : Span) :
    Program surroundings (Except Failure PowerState × Except Failure PowerState) := do
  let (a, b) ← Program.call (I := surroundings)
    (.sendBoth (probe first token wait) (probe second token wait))
  return (powerOf first a, powerOf second b)

end ControlPlane.Agent
