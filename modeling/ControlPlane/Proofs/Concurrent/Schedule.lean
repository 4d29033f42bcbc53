import ControlPlane.Proofs.Concurrent.System

/-!
# Schedules

A schedule says who takes the next step, and what is answered where neither the store nor the locks
decide it. Whatever a schedule leads to can be reached.
-/

namespace ControlPlane.Concurrent
open Control

/-- Replies of hosts and collaborators, of the clock, and of whoever gives identifiers out. -/
abbrev Oracle := (r : Request) → r.Reply

namespace Oracle

/-- Everything goes well that hosts have no part in: the planner names a host, and nobody
objects. -/
def smooth (id : Uuid) (host : HostId) (answer : Agent.Envelope → Except Failure Agent.Answer) :
    Oracle
  | .transact t => (t.apply {}).1
  | .now => .epoch
  | .freshId => id
  | .lock _ => false
  | .unlock .. => ()
  | .pass _ => .ok ()
  | .send envelope => answer envelope
  | .sendBoth first second => (answer first, answer second)
  | .isConnected _ | .hasGuru _ => true
  | .selectHost .. => .ok (some host)
  | .hasRoom .. => .ok true
  | .snapshotPending _ => .ok false
  | .finalizeStart .. | .prepareStop _ | .finalizeStop _ => .ok ()

def silent : Oracle :=
  smooth default default fun envelope =>
    .error (.agentUnavailable envelope.host (.noSession envelope.kind))

end Oracle

instance (s : Store) (t : Transaction) : Decidable (Carries s t) := by
  unfold Carries
  split
  next u =>
    refine decidable_of_iff (∀ vm ∈ s.vm? u.vm, u.Matches vm →
      vm.version.toNat + 1 < UInt64.size) ?_
    simp only [Option.mem_def]
  · infer_instance

instance (s : Shared) (id : Uuid) : Decidable (s.Fresh id) := by
  unfold Shared.Fresh
  infer_instance

/-- Carries a transaction out. Items are only listed where they are in order as they lie. -/
def carry? (s : Store) : (t : Transaction) → Option (t.Reply × Store)
  | .openItems owner =>
    if s.work.rows.Pairwise (fun a b => decide (a.created.Le b.created)) then
      some (s.work.rows.filter fun item => item.owner = owner ∧ item.Open, s)
    else none
  | t => if Carries s t then some (t.apply s) else none

theorem apply_of_carry? {s : Store} {t : Transaction} {result : t.Reply × Store}
    (h : carry? s t = some result) : Carries s t ∧ t.apply s = result := by
  cases t with
  | openItems owner =>
    simp only [carry?] at h
    split at h
    next ordered =>
      cases h
      refine ⟨trivial, ?_⟩
      simp only [Transaction.apply, Store.openItems, Store.items,
        List.mergeSort_of_pairwise ordered]
    · cases h
  | _ =>
    simp only [carry?] at h
    split at h
    next carries =>
      cases h
      exact ⟨carries, rfl⟩
    · cases h

def Shared.answer? (s : Shared) (job : Nat) (oracle : Oracle) :
    (r : Request) → Option (r.Reply × Shared)
  | .transact t => (carry? s.store t).map fun (reply, store) => (reply, { s with store := store })
  | .freshId =>
    if s.Fresh (oracle .freshId) then
      some (oracle .freshId, { s with stamps := ⟨oracle .freshId, job⟩ :: s.stamps })
    else none
  | .lock name =>
    if s.Holds job name then some (true, s)
    else some (false, { s with locks := s.locks.giveUp job name })
  | .unlock name how => some ((), { s with locks := s.locks.release name how })
  | .pass _ => some (.ok (), s)
  | r => some (oracle r, s)

theorem Shared.answers_of_answer? {s s' : Shared} {job : Nat} {oracle : Oracle} {r : Request}
    {reply : r.Reply} (h : s.answer? job oracle r = some (reply, s')) :
    s.Answers job r reply s' := by
  cases r with
  | transact t =>
    obtain ⟨result, carried, e⟩ := Option.map_eq_some_iff.1 h
    obtain ⟨carries, rfl⟩ := apply_of_carry? carried
    cases e
    exact ⟨carries, rfl, rfl⟩
  | freshId =>
    simp only [answer?] at h
    split at h
    next fresh =>
      cases h
      exact ⟨fresh, rfl⟩
    · cases h
  | lock name =>
    simp only [answer?] at h
    split at h
    next holds =>
      cases h
      exact ⟨holds, rfl⟩
    next free =>
      cases h
      exact ⟨free, rfl⟩
  | pass point =>
    cases h
    exact ⟨rfl, rfl⟩
  | _ =>
    cases h
    rfl

inductive Turn (τ : Type) where
  | launch (task : τ)
  | make (job : Nat)
  | answer (job : Nat) (oracle : Oracle)

namespace Job
variable {τ ρ : Type}

def make? (s : Shared) (job : Job τ ρ) : Option (Shared × Job τ ρ) :=
  match job.program, job.waits with
  | .ask r _, false => some (s.enter job.number r, { job with waits := true })
  | _, _ => none

def answer? (oracle : Oracle) (s : Shared) (job : Job τ ρ) : Option (Shared × Job τ ρ) :=
  match job.program, job.waits with
  | .ask r rest, true =>
    (s.answer? job.number oracle r).map fun (reply, s') =>
      (s', job.resume r reply s.store (rest reply))
  | _, _ => none

end Job

section
variable {τ ρ : Type} {W : Workload τ ρ}

def onJob (number : Nat) (act : Job τ ρ → Option (Shared × Job τ ρ)) :
    List (Job τ ρ) → Option (Shared × List (Job τ ρ))
  | [] => none
  | job :: jobs =>
    if job.number = number then (act job).map fun (s, job) => (s, job :: jobs)
    else (onJob number act jobs).map fun (s, jobs) => (s, job :: jobs)

theorem onJob_split {number : Nat} {act : Job τ ρ → Option (Shared × Job τ ρ)}
    {jobs jobs' : List (Job τ ρ)} {s : Shared} (h : onJob number act jobs = some (s, jobs')) :
    ∃ before job job' after, jobs = before ++ job :: after ∧ act job = some (s, job') ∧
      jobs' = before ++ job' :: after := by
  induction jobs generalizing jobs' with
  | nil => cases h
  | cons job jobs ih =>
    simp only [onJob] at h
    split at h
    · obtain ⟨⟨s, job'⟩, acts, e⟩ := Option.map_eq_some_iff.1 h
      cases e
      exact ⟨[], job, job', jobs, rfl, acts, rfl⟩
    · obtain ⟨⟨s, jobs'⟩, found, e⟩ := Option.map_eq_some_iff.1 h
      cases e
      obtain ⟨before, other, other', after, rfl, acts, rfl⟩ := ih found
      exact ⟨job :: before, other, other', after, rfl, acts, rfl⟩

variable (W)

def turn? (sys : System τ ρ) : Turn τ → Option (System τ ρ)
  | .launch task => some (sys.launch W task)
  | .make job =>
    (onJob job (Job.make? sys.shared) sys.jobs).map fun (s, jobs) => ⟨s, jobs, sys.next⟩
  | .answer job oracle =>
    (onJob job (Job.answer? oracle sys.shared) sys.jobs).map fun (s, jobs) =>
      ⟨s, jobs, sys.next⟩

/-- Plays a schedule, unless one of its turns cannot be taken. -/
def play? (sys : System τ ρ) : List (Turn τ) → Option (System τ ρ)
  | [] => some sys
  | turn :: turns => (turn? W sys turn).bind fun sys => play? sys turns

def advance (job requests : Nat) (oracle : Oracle) : List (Turn τ) :=
  (List.replicate requests [.make job, .answer job oracle]).flatten

variable {W} {sys sys' : System τ ρ}

theorem step_of_turn? {turn : Turn τ} (h : turn? W sys turn = some sys') : Step W sys sys' := by
  cases turn with
  | launch task =>
    cases h
    exact .launch sys task
  | make job =>
    obtain ⟨⟨s, jobs⟩, found, e⟩ := Option.map_eq_some_iff.1 h
    cases e
    obtain ⟨before, job, job', after, split, made, rfl⟩ := onJob_split found
    obtain ⟨shared, jobs, next⟩ := sys
    cases split
    simp only [Job.make?] at made
    split at made
    next r rest asks idle =>
      cases made
      exact .make shared before after next job asks idle
    · cases made
  | answer job oracle =>
    obtain ⟨⟨s, jobs⟩, found, e⟩ := Option.map_eq_some_iff.1 h
    cases e
    obtain ⟨before, job, job', after, split, made, rfl⟩ := onJob_split found
    obtain ⟨shared, jobs, next⟩ := sys
    cases split
    simp only [Job.answer?] at made
    split at made
    next r rest asks waits =>
      obtain ⟨⟨reply, s'⟩, answered, e⟩ := Option.map_eq_some_iff.1 made
      cases e
      exact .answer shared s' before after next job reply asks waits
        (Shared.answers_of_answer? answered)
    · cases made

theorem runs_of_play? {turns : List (Turn τ)} (h : play? W sys turns = some sys') :
    Runs W sys sys' := by
  induction turns generalizing sys with
  | nil =>
    cases h
    exact .refl
  | cons turn turns ih =>
    obtain ⟨middle, taken, rest⟩ := Option.bind_eq_some_iff.1 h
    exact .head (step_of_turn? taken) (ih rest)

theorem Runs.reaches (h : Runs W sys sys') : Reaches W sys sys' :=
  Relation.ReflTransGen.mono (fun _ _ step => .step step) _ _ h

end
end ControlPlane.Concurrent
