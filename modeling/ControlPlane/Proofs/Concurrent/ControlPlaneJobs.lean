import ControlPlane.Proofs.Concurrent.ContractInSystem
import ControlPlane.Proofs.Operation.Calls
import ControlPlane.Proofs.Operation.MoveDiscipline
import ControlPlane.Proofs.Recovery.ScanDiscipline

/-!
# Operations and scans side by side

The jobs of a control plane are operations that somebody calls for, and recovery scans. Each of them
keeps to its contract, so that what one of them relies on is what the others do.
-/

namespace ControlPlane.Concurrent
open Work Control Operation

/-- What the jobs of a control plane are about. -/
inductive Duty where
  | operate (ctx : Context) (call : Call)
  | scan (ctx : Context)
deriving DecidableEq

def trial : Context := .ofConfig .test

namespace Duty

def node : Duty → NodeId
  | operate ctx _ | scan ctx => ctx.node.id

def program : Duty → Program surroundings (Except Failure Unit)
  | operate ctx call => (call.perform ctx).run
  | scan ctx => (do let _ ← Recovery.scan ctx : Procedure Unit).run

/-- The requests that a job may make. -/
def fit (job : Nat) : Duty → List Exchange → Shared → Control.Request → Prop
  | operate .., _, s, r => Owns job s r
  | scan ctx, past, s, r => Scans ctx.node.id past s r

abbrev contract (duty : Duty) (job : Nat) : Contract := discipline (duty.fit job) duty.node job

end Duty

/-- The work of a control plane. -/
def duties : Workload Duty (Except Failure Unit) := ⟨Duty.program, Duty.node⟩

variable {job : Nat} {past : List Exchange} {s : Shared}

theorem safe_perform {ctx : Context} (call : Call) (idle : Idle job s) :
    Safe (operating ctx.node.id job) Anyhow (call.perform ctx).run past s := by
  have discard : ∀ {α : Type} {action : Procedure α},
      Safe (operating ctx.node.id job) Anyhow action.run past s →
        Safe (operating ctx.node.id job) Anyhow (do let _ ← action : Procedure Unit).run past s :=
    fun h => Safe.andThen h (fun _ _ _ _ => trivial) fun _ _ _ _ => trivial
  cases call with
  | start vm => exact discard (safe_start idle)
  | stop vm force => exact discard (safe_stop idle)
  | migrate request => exact discard (safe_migrate idle)
  | scale vm resources => exact discard (safe_scale idle)
  | destroy vm => exact discard (safe_locally (calm_of_local (.inl rfl)) idle)
  | recover vm => exact discard (safe_locally (calm_of_local (.inr (.inl rfl))) idle)
  | expunge vm => exact discard (safe_locally (calm_of_local (.inr (.inr rfl))) idle)

theorem Duty.safe (duty : Duty) (idle : Idle job s) :
    Safe (duty.contract job) Anyhow duty.program past s := by
  cases duty with
  | operate ctx call => exact safe_perform call idle
  | scan ctx => exact Safe.andThen (safe_scan idle) (fun _ _ _ _ => trivial) fun _ _ _ _ => trivial

abbrev Continues (job : Job Duty (Except Failure Unit)) (s : Shared) : Prop :=
  Adheres (job.task.contract job.number) Anyhow job s

structure Kept (sys : System Duty (Except Failure Unit)) : Prop where
  coherent : Coherent sys.shared
  numbered : sys.Numbered
  stamps : ∀ {k id}, sys.shared.Drew k id → k < sys.next
  jobs : ∀ job ∈ sys.jobs, Continues job sys.shared

variable {sys sys' : System Duty (Except Failure Unit)}

/-- Every machine that is on its way is covered, and if it migrates, its item tells the way. -/
def Orderly (store : Store) : Prop :=
  ∀ v vm, store.vm? v = some vm → vm.state.InMotion →
    ∃ x, x.vm = v ∧ store.Covers x ∧ (vm.state = .migrating → Leads x vm.host)

theorem orderly_of_rest {store : Store}
    (rest : ∀ v vm, store.vm? v = some vm → ¬ vm.state.InMotion) :
    Orderly store := fun v vm stored moves => absurd moves (rest v vm stored)

theorem Kept.start {store : Store} (orderly : Orderly store) : Kept (System.start store) where
  coherent := ⟨Locks.sound_empty, fun drew => absurd drew List.not_mem_nil, orderly _ _⟩
  numbered := .start store
  stamps drew := absurd drew List.not_mem_nil
  jobs _ mem := absurd mem List.not_mem_nil

theorem Kept.advance {job job' : Job Duty (Except Failure Unit)} (h : Kept sys)
    (advance : Advance sys sys' job job') : Kept sys' := by
  obtain ⟨⟨acts, coherent⟩, continues⟩ :=
    advance.adheres rfl h.coherent (h.jobs job advance.mem.1)
  refine ⟨coherent, advance.numbered h.numbered, fun {j id} drew => ?_, fun other mem => ?_⟩
  · rw [advance.next]
    by_cases mine : j = job.number
    · exact mine ▸ h.numbered.below job advance.mem.1
    · exact h.stamps (acts.draws mine drew)
  · rcases advance.kept mem with rfl | there
    · rwa [← advance.task, ← advance.number] at continues
    · have ne := advance.bystander h.numbered there mem
      have passes : Passes other.number other.task.node sys.shared sys'.shared :=
        ⟨h.coherent, coherent, .acts ne.symm acts⟩
      exact (h.jobs other there).of_rely stable_anyhow (.single passes) coherent

theorem Kept.step (h : Kept sys) (step : Step duties sys sys') : Kept sys' := by
  rcases step.advances with ⟨task, rfl⟩ | ⟨job, job', advance⟩
  · refine ⟨h.coherent, h.numbered.step step, fun drew => Nat.lt_succ_of_lt (h.stamps drew),
      fun job mem => ?_⟩
    rcases List.mem_cons.1 mem with rfl | mem
    · exact ⟨fun _ => task.safe fun id drew => absurd (h.stamps drew) (Nat.lt_irrefl _), nofun⟩
    · exact h.jobs job mem
  · exact h.advance advance

/-- The end of another node's process, as a job sees it that stays. -/
theorem Kept.outlives (h : Kept sys) {node : NodeId} {job : Job Duty (Except Failure Unit)}
    (mem : job ∈ (sys.crash duties node).jobs) :
    Passes job.number job.task.node sys.shared (sys.crash duties node).shared := by
  have stays : job.task.node ≠ node := of_decide_eq_true (List.mem_filter.1 mem).2
  exact ⟨h.coherent, h.coherent.crash node, .crash stays.symm rfl⟩

theorem Kept.move (h : Kept sys) (move : Move duties sys sys') : Kept sys' := by
  cases move with
  | step step => exact h.step step
  | crash node =>
    refine ⟨h.coherent.crash node, h.numbered.move (.crash node), h.stamps, fun job mem => ?_⟩
    have passes := h.outlives mem
    exact (h.jobs job (List.mem_filter.1 mem).1).of_rely stable_anyhow (.single passes) passes.after

/-- A move of all jobs together, as a job sees it that stands still. -/
theorem Kept.passes (h : Kept sys) (move : Move duties sys sys')
    {job : Job Duty (Except Failure Unit)} (mem : job ∈ sys.jobs) (mem' : job ∈ sys'.jobs) :
    Passes job.number job.task.node sys.shared sys'.shared := by
  cases move with
  | crash node => exact h.outlives mem'
  | step step =>
    rcases step.advances with ⟨task, rfl⟩ | ⟨mover, moved, advance⟩
    · exact ⟨h.coherent, h.coherent, .acts (Nat.succ_ne_self job.number) (.refl _ _)⟩
    · obtain ⟨⟨acts, coherent⟩, -⟩ :=
        advance.adheres rfl h.coherent (h.jobs mover advance.mem.1)
      exact ⟨h.coherent, coherent, .acts (advance.bystander h.numbered mem mem').symm acts⟩

theorem Kept.reaches (h : Kept sys) (reached : Reaches duties sys sys') : Kept sys' := by
  -- What is kept speaks of all jobs at once, so that each move keeps it without a look at the
  -- others.
  induction reached with
  | refl => exact h
  | tail _ move ih => exact ih.move move

end ControlPlane.Concurrent
