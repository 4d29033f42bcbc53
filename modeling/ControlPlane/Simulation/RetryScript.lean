import ControlPlane.Placement.RetryLoop
import ControlPlane.Store.Usages

/-! Running the retry loop of placement against scripted collaborators, with a trace of the
calls. -/

namespace ControlPlane.Simulation.RetryScript
open Placement

/-- A call as the trace shows it. -/
inductive Traced where
  | increment
  | decrement
  | probe (host : HostId)
  | plan (excluded : List HostId)
  | attempt (target : Target)
deriving DecidableEq, Repr

/-- What the planner is told to say to one call. -/
inductive Plan where
  | noHost
  | host (id : HostId)
  | fail (failure : Failure)

structure State (α : Type) where
  /-- The answers of the planner, before it goes by the candidates. -/
  plans : List Plan
  candidates : List HostId
  /-- The hosts about whose room something is said. -/
  capacity : List (HostId × Except Failure Bool)
  /-- How the operation ends, one call after the other. -/
  outcomes : List (Except Failure α)
  /-- How the operation ends after that. -/
  otherwise : α
  /-- The number of the charge that is refused. -/
  failIncrement : Option Nat
  /-- The number of the return of a charge that is refused. -/
  failDecrement : Option Nat
  increments : Nat := 0
  decrements : Nat := 0
  store : Store := {}
  /-- The calls so far, the last one first. -/
  trace : List Traced := []

variable {α : Type}

def State.note (s : State α) (call : Traced) : State α := { s with trace := call :: s.trace }

/-- Answers a call about a growth. -/
def answer (growth : Growth) : (call : Call) → StateM (State α) ((calls α).Reply call)
  | .increment => fun s =>
    let s := { s.note .increment with increments := s.increments + 1 }
    if s.failIncrement = some s.increments then
      (.error (.fault (.other "increment refused")), s)
    else (.ok (), { s with store := s.store.charge growth.account growth.delta })
  | .decrement => fun s =>
    let s := { s.note .decrement with decrements := s.decrements + 1 }
    if s.failDecrement = some s.decrements then
      (.error (.fault (.other "decrement refused")), s)
    else (.ok (), { s with store := s.store.credit growth.account growth.delta })
  | .hasRoom host => fun s => ((s.capacity.lookup host).getD (.ok true), s.note (.probe host))
  | .selectHost excluded => fun s =>
    let s := s.note (.plan excluded.rows)
    match s.plans with
    | [] => (.ok (s.candidates.find? (!excluded.rulesOut ·)), s)
    | .noHost :: plans => (.ok none, { s with plans := plans })
    | .host id :: plans => (.ok (some id), { s with plans := plans })
    | .fail failure :: plans => (.error failure, { s with plans := plans })
  | .attempt target => fun s =>
    let s := s.note (.attempt target)
    match s.outcomes with
    | [] => (.ok s.otherwise, s)
    | outcome :: outcomes => (outcome, { s with outcomes := outcomes })

/-- Runs the loop for a growth. -/
def run (s : State α) (growth : Growth) (limit : Nat) :
    Except Failure (Outcome α) × State α :=
  let loop : StateM (State α) _ := (retry α growth limit).run (answer growth)
  loop.run s

end ControlPlane.Simulation.RetryScript
