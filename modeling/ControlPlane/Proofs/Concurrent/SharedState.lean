import ControlPlane.Control
import ControlPlane.Work.Locks

/-!
# What jobs have in common

Jobs share a store, the locks of machines and the identifiers that were given out. A request of a
job is first made and then answered: only a request for a lock is noticed when it is made, since
from then on the job stands in line.

The store never fails. The one thing that it is not asked to do is to count a version past the word
that holds it.
-/

namespace ControlPlane.Concurrent
open Control

/-- An identifier that was given out, and the job that asked for it. -/
structure Stamp where
  id : Uuid
  job : Nat
deriving DecidableEq

/-- What all jobs have in common. -/
structure Shared where
  store : Store
  locks : Work.Locks := {}
  stamps : List Stamp := []

/-- The store can carry out a transaction: no version runs over. -/
def Carries (s : Store) : Transaction → Prop
  | .swap u => ∀ vm, s.vm? u.vm = some vm → u.Matches vm → vm.version.toNat + 1 < UInt64.size
  | _ => True

namespace Shared
variable {s : Shared} {job : Nat}

def Holds (s : Shared) (job : Nat) (name : LockName) : Prop := s.locks.isGranted job name = true

instance (s : Shared) (job : Nat) (name : LockName) : Decidable (s.Holds job name) := by
  unfold Holds; infer_instance

def Drew (s : Shared) (job : Nat) (id : Uuid) : Prop := ⟨id, job⟩ ∈ s.stamps

/-- An identifier that was never given out and that no item has. -/
def Fresh (s : Shared) (id : Uuid) : Prop :=
  s.store.item? id = none ∧ ∀ stamp ∈ s.stamps, stamp.id ≠ id

def enter (s : Shared) (job : Nat) : Request → Shared
  | .lock name => { s with locks := s.locks.claim job name }
  | _ => s

/-- The answers to a request that a job has made. Hosts and collaborators may answer anything. -/
def Answers (s : Shared) (job : Nat) : (r : Request) → r.Reply → Shared → Prop
  | .transact t, reply, s' =>
    Carries s.store t ∧ reply = (t.apply s.store).1 ∧
      s' = { s with store := (t.apply s.store).2 }
  | .freshId, id, s' => s.Fresh id ∧ s' = { s with stamps := ⟨id, job⟩ :: s.stamps }
  | .lock name, true, s' => s.Holds job name ∧ s' = s
  | .lock name, false, s' =>
    ¬ s.Holds job name ∧ s' = { s with locks := s.locks.giveUp job name }
  | .unlock name how, _, s' => s' = { s with locks := s.locks.release name how }
  | .pass _, reply, s' => reply = .ok () ∧ s' = s
  | _, _, s' => s' = s

/-- The locks of a node are gone, and with them the places in line. -/
def crash (s : Shared) (node : NodeId) : Shared :=
  { s with locks := s.locks.dropWhere (·.name.node = node) }

end Shared

structure Exchange where
  request : Request
  reply : request.Reply
  /-- The store just before the answer. -/
  before : Store

end ControlPlane.Concurrent
