import ControlPlane.Agent.Registry

/-! A send as its sender sees it: it is over when there is an answer, and otherwise when the wait
has passed. Time is counted in milliseconds. An answer that comes at the last moment still
counts. -/

namespace ControlPlane.Agent

inductive Sending where
  | pending (id : Nat) (envelope : Envelope) (deadline : Nat)
  | ended (result : Except Failure Answer)

namespace Sending

/-- Looks whether a send is over, and lets it go on if it is not. -/
def poll (r : Registry) (now : Nat) : Sending → Sending × Registry
  | ended result => (ended result, r)
  | pending id envelope deadline =>
    let r := r.advance id
    match r.result? id with
    | some result => (ended result, r.finish id)
    | none =>
      if deadline ≤ now then (ended (.error (Registry.timeout envelope)), r.finish id)
      else (pending id envelope deadline, r)

/-- Begins to send a command. -/
def start (r : Registry) (now : Nat) (envelope : Envelope) : Sending × Registry :=
  match r.begin envelope with
  | (.error failure, r) => (ended (.error failure), r)
  | (.ok id, r) => (pending id envelope (now + envelope.wait.millisUp)).poll r now

/-- The time at which the sender stops waiting. -/
def deadline? : Sending → Option Nat
  | pending _ _ deadline => some deadline
  | ended _ => none

/-- Stops waiting at once. -/
def abort (r : Registry) : Sending → Registry
  | pending id _ _ => r.finish id
  | ended _ => r

end Sending
end ControlPlane.Agent
