import ControlPlane.Control

/-! The locks of machines inside one process. A lock is made when somebody first asks for it, and
the table of locks may forget it again as soon as nobody holds it or waits for it; whoever asks next
gets a new one. Everybody who waits for a lock gets it in turn. -/

namespace ControlPlane.Work

/-- A request for a lock, by somebody who holds it or waits for it. -/
structure Claim where
  owner : Nat
  name : LockName
  /-- The lock that the name stood for, by its number. -/
  lock : Nat
  granted : Bool
deriving DecidableEq, Repr

/-- The lock that a name stands for at present. -/
structure LockEntry where
  name : LockName
  lock : Nat
deriving DecidableEq, Repr

structure Locks where
  /-- The number of the next lock that is made. -/
  fresh : Nat := 0
  entries : List LockEntry := []
  /-- All claims, the oldest first. -/
  claims : List Claim := []
deriving DecidableEq, Repr

namespace Locks

def entry? (l : Locks) (name : LockName) : Option LockEntry := l.entries.find? (·.name = name)

/-- Looks a lock up, and makes it if there is none. -/
def lookup (l : Locks) (name : LockName) : Nat × Locks :=
  match l.entry? name with
  | some e => (e.lock, l)
  | none => (l.fresh, { l with fresh := l.fresh + 1, entries := ⟨name, l.fresh⟩ :: l.entries })

/-- The lock is in somebody's hands. -/
def isHeld (l : Locks) (lock : Nat) : Bool := l.claims.any fun c => c.lock = lock && c.granted

/-- Somebody holds the lock or waits for it. -/
def isWanted (l : Locks) (lock : Nat) : Bool := l.claims.any (·.lock = lock)

/-- Grants the oldest claim to a lock. -/
def grantOldest (lock : Nat) : List Claim → List Claim
  | [] => []
  | c :: claims =>
    if c.lock = lock then { c with granted := true } :: claims else c :: grantOldest lock claims

/-- Hands a lock that is free to the claim that has waited longest. -/
def handOver (l : Locks) (lock : Nat) : Locks :=
  if l.isHeld lock then l else { l with claims := grantOldest lock l.claims }

/-- Notes that somebody wants a lock. -/
def enter (l : Locks) (owner : Nat) (name : LockName) : Locks :=
  let (lock, l) := l.lookup name
  { l with claims := l.claims ++ [⟨owner, name, lock, false⟩] }

/-- Claims a lock. -/
def claim (l : Locks) (owner : Nat) (name : LockName) : Locks :=
  (l.enter owner name).handOver (l.lookup name).1

/-- The claim of an owner to a lock has been granted. -/
def isGranted (l : Locks) (owner : Nat) (name : LockName) : Bool :=
  l.claims.any fun c => c.owner = owner && c.name = name && c.granted

/-- Takes away the claims that a test picks, and hands over what becomes free. -/
def dropWhere (l : Locks) (picks : Claim → Bool) : Locks :=
  let dropped := l.claims.filter picks
  dropped.foldl (fun l c => l.handOver c.lock) { l with claims := l.claims.filter (!picks ·) }

/-- Gives up waiting. -/
def giveUp (l : Locks) (owner : Nat) (name : LockName) : Locks :=
  l.dropWhere fun c => c.owner = owner && c.name = name && !c.granted

/-- Forgets a lock that nobody wants. -/
def forget (l : Locks) (name : LockName) : Locks :=
  match l.entry? name with
  | none => l
  | some e =>
    if l.isWanted e.lock then l else { l with entries := l.entries.filter (·.name ≠ name) }

/-- Takes a lock out of the hands of whoever has it. -/
def handBack (l : Locks) (name : LockName) : Locks :=
  l.dropWhere fun c => c.name = name && c.granted

/-- Gives a lock back. -/
def release (l : Locks) (name : LockName) : Release → Locks
  | .plain => l.handBack name
  | .tidy => (l.handBack name).forget name

/-- Takes away everything that an owner holds or waits for. -/
def dropOwner (l : Locks) (owner : Nat) : Locks := l.dropWhere (·.owner = owner)

end Locks
end ControlPlane.Work
