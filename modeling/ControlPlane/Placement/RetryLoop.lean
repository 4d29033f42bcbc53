import ControlPlane.Failure
import ControlPlane.Placement.Basic
import ControlPlane.Program

/-! The retry loop of placement. An attempt takes the machine's own host first and asks the planner
when that host has no room. The account is charged before every attempt and given back what it was
charged when the attempt comes to nothing; so, while the account itself can be written, a run that
succeeds leaves one charge behind and a run that fails leaves none. -/

namespace ControlPlane.Placement

/-- What the loop asks for. All requests are about one growth. -/
inductive Call where
  /-- Charges the account. -/
  | increment
  /-- Takes a charge back. -/
  | decrement
  | hasRoom (host : HostId)
  | selectHost (excluded : Exclusions)
  /-- Carries out the operation on a target. -/
  | attempt (target : Target)

/-- The calls of a loop whose operation gives a value of type `α`. -/
def calls (α : Type) : Interface where
  Request := Call
  Reply
    | .increment | .decrement => Except Failure Unit
    | .hasRoom _ => Except Failure Bool
    | .selectHost _ => Except Failure (Option HostId)
    | .attempt _ => Except Failure α

/-- How an attempt ends that did not break off. -/
inductive Attempt (α : Type) where
  | succeeded (target : Target) (value : α)
  | noRoom (host : HostId)
  | failed (host : HostId) (failure : Failure)
  | noCandidate

/-- What a successful run leaves. -/
structure Outcome (α : Type) where
  value : α
  target : Target
  excluded : Exclusions
  attempts : Nat

abbrev Loop (α β : Type) := ExceptT Failure (Program (calls α)) β

namespace Loop
variable {α : Type}

def increment : Loop α Unit := Program.call (I := calls α) .increment

def decrement : Loop α Unit := Program.call (I := calls α) .decrement

def hasRoom (host : HostId) : Loop α Bool := Program.call (I := calls α) (.hasRoom host)

def selectHost (excluded : Exclusions) : Loop α (Option HostId) :=
  Program.call (I := calls α) (.selectHost excluded)

/-- Carries out the operation on a target, and notes how it ends. -/
def tryOn (target : Target) : Loop α (Attempt α) :=
  show Program (calls α) (Except Failure (Attempt α)) from do
    match ← Program.call (I := calls α) (.attempt target) with
    | .ok value => pure (.ok (.succeeded target value))
    | .error failure => pure (.ok (.failed target.host failure))

/-- Asks the planner for a host and carries out the operation there, if there is room. -/
def tryElsewhere (excluded : Exclusions) : Loop α (Attempt α) := do
  match ← selectHost excluded with
  | none => return .noCandidate
  | some host =>
    if ← hasRoom host then tryOn (.migrate host)
    else return .noRoom host

/-- One attempt, together with the hosts that are ruled out from then on. A current host without
room is ruled out on the spot. -/
def attempt (growth : Growth) (excluded : Exclusions) : Loop α (Attempt α × Exclusions) := do
  match growth.current.filter (!excluded.rulesOut ·) with
  | some host =>
    if ← hasRoom host then return (← tryOn (.inPlace host), excluded)
    else
      let excluded := excluded.insert host
      return (← tryElsewhere excluded, excluded)
  | none => return (← tryElsewhere excluded, excluded)

/-- Takes the charge back where the action breaks off. -/
def reverting {β : Type} (action : Loop α β) : Loop α β :=
  tryCatch action fun failure => do
    decrement
    throw failure

/-- Makes the attempts that remain out of `limit`. -/
def attempts (growth : Growth) (limit : Nat) : Nat → Exclusions → Loop α (Outcome α)
  | 0, _ => throw (.unavailable (.attemptsSpent growth.vm limit))
  | remaining + 1, excluded => do
    increment
    match ← reverting (attempt growth excluded) with
    | (.succeeded target value, excluded) =>
      return ⟨value, target, excluded, limit - remaining⟩
    | (.noRoom host, excluded) =>
      decrement
      attempts growth limit remaining (excluded.insert host)
    | (.failed host failure, excluded) =>
      decrement
      if failure.NeedsReconciliation then throw failure
      else attempts growth limit remaining (excluded.insert host)
    | (.noCandidate, excluded) =>
      decrement
      throw (.unavailable (.noCandidate growth.vm excluded.size))

end Loop

/-- Makes attempts until one succeeds or `limit` of them are spent. -/
def retry (α : Type) (growth : Growth) (limit : Nat) :
    Program (calls α) (Except Failure (Outcome α)) :=
  (Loop.attempts growth limit limit ∅).run

end ControlPlane.Placement
