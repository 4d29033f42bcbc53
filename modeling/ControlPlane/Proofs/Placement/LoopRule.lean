import ControlPlane.Proofs.Operation.PlannedMoves
import ControlPlane.Proofs.Placement.AccountBalance
import ControlPlane.Proofs.Placement.RevertedCharges
import ControlPlane.Proofs.Scale.Outcomes

/-!
# A rule for retry loops

All that a retry loop is known to do, in one rule for loops that are carried out call by call: the
account is charged when there is no charge, and given back what it was charged; nothing is attempted
in place after a move; and an attempt that succeeds, or of which nobody knows how it has ended, is
the last one.
-/

namespace ControlPlane
open Placement

variable {α : Type}

/-- How far a loop has come. -/
inductive Phase where
  /-- The machine may be attempted again, and may have been moved already. -/
  | roams (moved : Bool)
  /-- Nobody knows how the last attempt has ended. -/
  | lost (failure : Failure)

namespace Phase

def after (moved : Bool) (target : Target) (failure : Failure) : Phase :=
  if failure.NeedsReconciliation then .lost failure else .roams
    (moved || (Call.attempt target).moves)

/-- With this failure a loop may end that has come so far. -/
def Admits (failure : Failure) : Phase → Prop
  | .roams _ => True
  | .lost unclear => failure = unclear

end Phase

namespace Concurrent
open Control

variable {C : Contract} {R : Phase → Bool → Assertion} {W : Assertion} {current : Option HostId}
  {answer : (call : Call) → Program surroundings ((calls α).Reply call)} {past : List Exchange}
  {s : Shared} {moved outstanding : Bool}

/-- What is known after an attempt: the loop is over, or goes on from where the failure has left
it. -/
def Attempted (R : Phase → Bool → Assertion) (W : Assertion) (moved : Bool) (target : Target) :
    Except Failure α → Assertion
  | .ok _ => W
  | .error failure => R (.after moved target failure) true

/-- What is known after a loop, which has left a charge behind if it has succeeded and only then. -/
def Looped (R : Phase → Bool → Assertion) (W : Assertion) :
    Except Failure (Outcome α) → Assertion
  | .ok _ => W
  | .error failure => fun past s => ∃ phase, phase.Admits failure ∧ R phase false past s

/-- What the calls of a loop do to that which is known of the phase it is in, and of its charge. -/
structure Serves (C : Contract)
    (answer : (call : Call) → Program surroundings ((calls α).Reply call))
    (current : Option HostId) (R : Phase → Bool → Assertion) (W : Assertion) : Prop where
  charges : ∀ {phase past s}, R phase false past s →
    Safe C (fun (reply : Except Failure Unit) past s => reply = .ok () ∧ R phase true past s)
      (answer .increment) past s
  credits : ∀ {phase past s}, R phase true past s →
    Safe C (fun (reply : Except Failure Unit) past s => reply = .ok () ∧ R phase false past s)
      (answer .decrement) past s
  measures : ∀ {host phase past s}, R phase true past s →
    Safe C (fun _ => R phase true) (answer (.hasRoom host)) past s
  selects : ∀ {excluded phase past s}, R phase true past s →
    Safe C (fun _ => R phase true) (answer (.selectHost excluded)) past s
  tries : ∀ {target moved past s},
    (∀ host, target = .inPlace host → moved = false ∧ current = some host) →
    R (.roams moved) true past s →
    Safe C (Attempted R W moved target) (answer (.attempt target)) past s

theorem Safe.lastly {failure : Failure} (serves : Serves C answer current R W)
    (h : R (.lost failure) true past s) :
    Safe C (Looped (α := α) R W) ((Loop.lastly failure).run answer) past s := by
  refine Safe.then (serves.credits h) fun reply past s h => ?_
  obtain ⟨rfl, h⟩ := h
  exact ⟨.lost failure, rfl, h⟩

/-- What is known of the calls gives what is known of the loop. -/
theorem Safe.rounds (serves : Serves C answer current R W)
    {p : Program (calls α) (Except Failure (Outcome α))}
    (keeps : p.Keeps (tally α) Settled outstanding)
    (clinches : Clinches (fun result => Except.isOk result = true) p)
    (strands : Strands (fun failure p => p = Loop.lastly failure) p)
    (roams : Roams current (fun _ _ => True) moved p) (h : R (.roams moved) outstanding past s) :
    Safe C (Looped R W) (p.run answer) past s := by
  -- On the calls that are left, with the charge that is outstanding and whether the machine was
  -- moved.
  induction p generalizing moved outstanding past s with
  | done result =>
    have settled : outstanding = Except.isOk result := keeps
    cases result with
    | ok outcome => exact absurd rfl clinches
    | error failure =>
      subst settled
      exact ⟨.roams moved, trivial, h⟩
  | ask call rest ih =>
    obtain ⟨fair, keeps⟩ := keeps
    obtain ⟨home, roams⟩ := roams
    have goes : ∀ {reply past s}, ¬ Succeeds call reply → (tally α).Good call reply →
        R (.roams (moved || call.moves)) ((tally α).charged call outstanding) past s →
        Safe C (Looped R W) ((rest reply).run answer) past s :=
      fun fails good h => ih _ (keeps _ good) ((clinches _).2 fails) (strands _).2 (roams _) h
    have still : moved = (moved || false) := (Bool.or_false moved).symm
    cases call with
    | increment =>
      cases fair
      refine Safe.then (serves.charges h) fun reply past s h => ?_
      exact goes (fun no => no) h.1 (still ▸ h.2)
    | decrement =>
      cases fair
      refine Safe.then (serves.credits h) fun reply past s h => ?_
      exact goes (fun no => no) h.1 (still ▸ h.2)
    | hasRoom host =>
      cases fair
      exact Safe.then (serves.measures h) fun reply past s h =>
        goes (fun no => no) trivial (still ▸ h)
    | selectHost excluded =>
      cases fair
      exact Safe.then (serves.selects h) fun reply past s h =>
        goes (fun no => no) trivial (still ▸ h)
    | attempt target =>
      cases fair
      refine Safe.then (serves.tries (fun host here => home host (congrArg Call.attempt here)) h) ?_
      intro result past s h
      cases result with
      | ok value =>
        -- Nothing is left to ask after a success.
        obtain ⟨outcome, last, isOk⟩ := (clinches (.ok value)).1 rfl
        rw [last]
        cases outcome with
        | ok outcome => exact h
        | error failure => cases isOk
      | error failure =>
        have h : R (.after moved target failure) true past s := h
        unfold Phase.after at h
        split at h
        next unknown =>
          rw [(strands (.error failure)).1 failure ⟨rfl, unknown⟩]
          exact Safe.lastly serves h
        next => exact goes (fun no => by cases no) trivial h

theorem Safe.retry {growth : Growth} (serves : Serves C answer growth.current R W) (limit : Nat)
    (h : R (.roams false) false past s) :
    Safe C (Looped R W) ((Placement.retry α growth limit).run answer) past s :=
  Safe.rounds serves (Loop.keeps_attempts ..) (Loop.clinches_attempts ..) (strands_retry ..)
    (roams_retry ..) h

end Concurrent
end ControlPlane
