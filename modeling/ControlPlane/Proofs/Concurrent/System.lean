import ControlPlane.Proofs.Concurrent.SharedState
import Mathlib.Data.List.Pairwise
import Mathlib.Logic.Relation

/-!
# Jobs side by side

Each job goes on by itself, one request at a time, and in any order with the others. The process of
a node can end between any two steps, and its jobs and locks with it.
-/

namespace ControlPlane.Concurrent
open Control

/-- A job on a task, with all that it has learned so far. -/
structure Job (τ ρ : Type) where
  number : Nat
  task : τ
  past : List Exchange := []
  /-- Its next request has been made and not been answered. -/
  waits : Bool := false
  program : Program surroundings ρ

def Job.resume {τ ρ : Type} (job : Job τ ρ) (r : Request) (reply : r.Reply) (before : Store)
    (rest : Program surroundings ρ) : Job τ ρ :=
  { job with past := job.past ++ [⟨r, reply, before⟩], waits := false, program := rest }

structure Workload (τ ρ : Type) where
  program : τ → Program surroundings ρ
  node : τ → NodeId

structure System (τ ρ : Type) where
  shared : Shared
  jobs : List (Job τ ρ) := []
  /-- The number of the next job. -/
  next : Nat := 0

section
variable {τ ρ : Type} (W : Workload τ ρ)

namespace System

def start (store : Store) : System τ ρ := ⟨⟨store, {}, []⟩, [], 0⟩

def launch (sys : System τ ρ) (task : τ) : System τ ρ :=
  ⟨sys.shared, ⟨sys.next, task, [], false, W.program task⟩ :: sys.jobs, sys.next + 1⟩

/-- The process of a node ends, at whatever point its jobs are. -/
def crash (sys : System τ ρ) (node : NodeId) : System τ ρ :=
  ⟨sys.shared.crash node, sys.jobs.filter (W.node ·.task ≠ node), sys.next⟩

end System

/-- One job begins, makes a request or gets an answer. -/
inductive Step : System τ ρ → System τ ρ → Prop
  | launch (sys : System τ ρ) (task : τ) : Step sys (sys.launch W task)
  | make (s : Shared) (before after : List (Job τ ρ)) (k : Nat) (job : Job τ ρ) {r : Request}
      {rest : r.Reply → Program surroundings ρ} (asks : job.program = .ask r rest)
      (idle : job.waits = false) :
      Step ⟨s, before ++ job :: after, k⟩
        ⟨s.enter job.number r, before ++ { job with waits := true } :: after, k⟩
  | answer (s s' : Shared) (before after : List (Job τ ρ)) (k : Nat)
      (job : Job τ ρ) {r : Request} {rest : r.Reply → Program surroundings ρ} (reply : r.Reply)
      (asks : job.program = .ask r rest) (waits : job.waits = true)
      (answers : s.Answers job.number r reply s') :
      Step ⟨s, before ++ job :: after, k⟩
        ⟨s', before ++ job.resume r reply s.store (rest reply) :: after, k⟩

/-- A step, or the end of a process. -/
inductive Move (sys : System τ ρ) : System τ ρ → Prop
  | step {sys' : System τ ρ} (h : Step W sys sys') : Move sys sys'
  | crash (node : NodeId) : Move sys (sys.crash W node)

/-- What the jobs can come to, in any order of their steps. -/
def Runs : System τ ρ → System τ ρ → Prop := Relation.ReflTransGen (Step W)

/-- What the jobs can come to if processes may also end and begin anew. -/
def Reaches : System τ ρ → System τ ρ → Prop := Relation.ReflTransGen (Move W)

def System.Over (sys : System τ ρ) : Prop :=
  ∀ job ∈ sys.jobs, ∃ result, job.program = .done result

instance (p : Program surroundings ρ) : Decidable (∃ result, p = .done result) :=
  match p with
  | .done result => isTrue ⟨result, rfl⟩
  | .ask _ _ => isFalse nofun

instance (sys : System τ ρ) : Decidable sys.Over := by
  unfold System.Over
  infer_instance

/-- No two jobs have one number, and none has the number of the next job. -/
structure System.Numbered (sys : System τ ρ) : Prop where
  below : ∀ job ∈ sys.jobs, job.number < sys.next
  distinct : sys.jobs.Pairwise (·.number ≠ ·.number)

variable {W} {sys sys' : System τ ρ}

theorem System.Numbered.start (store : Store) :
    (System.start (τ := τ) (ρ := ρ) store).Numbered :=
  ⟨by simp [System.start], .nil⟩

theorem System.Numbered.replace {s s' : Shared} {before after : List (Job τ ρ)} {k : Nat}
    {job job' : Job τ ρ}
    (h : System.Numbered ⟨s, before ++ job :: after, k⟩) (same : job'.number = job.number) :
    System.Numbered ⟨s', before ++ job' :: after, k⟩ := by
  obtain ⟨below, distinct⟩ := h
  constructor
  · intro other mem
    rcases List.mem_append.1 mem with mem | mem
    · exact below other (List.mem_append_left _ mem)
    · rcases List.mem_cons.1 mem with rfl | mem
      · exact same ▸ below job (by simp)
      · exact below other (by simp [mem])
  · simpa only [List.pairwise_append, List.pairwise_cons, List.mem_cons, forall_eq_or_imp, same]
      using distinct

theorem System.Numbered.step (h : sys.Numbered) (step : Step W sys sys') : sys'.Numbered := by
  cases step with
  | launch _ task =>
    refine ⟨fun job mem => ?_, List.pairwise_cons.2 ⟨fun job mem => ?_, h.distinct⟩⟩
    · rcases List.mem_cons.1 mem with rfl | mem
      · exact Nat.lt_succ_self _
      · exact Nat.lt_succ_of_lt (h.below job mem)
    · exact (Nat.ne_of_lt (h.below job mem)).symm
  | make s before after k job asks idle => exact h.replace rfl
  | answer s s' before after k job reply asks waits answers => exact h.replace rfl

theorem System.Numbered.move (h : sys.Numbered) (move : Move W sys sys') : sys'.Numbered := by
  cases move with
  | step step => exact h.step step
  | crash node =>
    exact ⟨fun job mem => h.below job (List.mem_filter.1 mem).1, h.distinct.filter _⟩

theorem System.Numbered.eq_of_number {job other : Job τ ρ} (h : sys.Numbered)
    (mem : job ∈ sys.jobs) (mem' : other ∈ sys.jobs) (same : job.number = other.number) :
    job = other := by
  by_contra ne
  have : Std.Symm fun a b : Job τ ρ => a.number ≠ b.number := ⟨fun _ _ h => h.symm⟩
  exact h.distinct.forall mem mem' ne same

section
variable {before after : List (Job τ ρ)} {job job' other : Job τ ρ}

theorem mem_replaced (mem : other ∈ before ++ job' :: after) :
    other = job' ∨ other ∈ before ++ job :: after := by
  simp only [List.mem_append, List.mem_cons] at mem ⊢
  rcases mem with mem | mem | mem <;> simp [mem]

theorem mem_replaced_of_ne (mem : other ∈ before ++ job :: after) (ne : other ≠ job) :
    other ∈ before ++ job' :: after := by
  simp only [List.mem_append, List.mem_cons] at mem ⊢
  rcases mem with mem | mem | mem
  · exact .inl mem
  · exact absurd mem ne
  · exact .inr (.inr mem)

end

/-- Each job can go on, and something stays true as it does. -/
structure Lively (Inv : System τ ρ → Prop) : Prop where
  make : ∀ {s before after k} {job : Job τ ρ} {r : Request} {rest : r.Reply →
    Program surroundings ρ},
    Inv ⟨s, before ++ job :: after, k⟩ → job.program = .ask r rest → job.waits = false →
      Inv ⟨s.enter job.number r, before ++ { job with waits := true } :: after, k⟩
  answer : ∀ {s before after k} {job : Job τ ρ} {r : Request} {rest : r.Reply →
    Program surroundings ρ},
    Inv ⟨s, before ++ job :: after, k⟩ → job.program = .ask r rest → job.waits = true →
      ∃ reply s', s.Answers job.number r reply s' ∧
        Inv ⟨s', before ++ job.resume r reply s.store (rest reply) :: after, k⟩

namespace Lively
variable {Inv : System τ ρ → Prop} (lively : Lively Inv)
include lively

/-- A job can come to its end while the others stand still. -/
theorem finish (p : Program surroundings ρ) {s : Shared} {before after : List (Job τ ρ)}
    {k : Nat} {job : Job τ ρ} (inv : Inv ⟨s, before ++ job :: after, k⟩)
    (here : job.program = p) :
    ∃ s' job', Runs W ⟨s, before ++ job :: after, k⟩ ⟨s', before ++ job' :: after, k⟩ ∧
      Inv ⟨s', before ++ job' :: after, k⟩ ∧ job'.task = job.task ∧
      ∃ result, job'.program = .done result := by
  induction p generalizing s job with
  | done result => exact ⟨s, job, .refl, inv, rfl, result, here⟩
  | ask r rest ih =>
    obtain ⟨s₁, job₁, made, inv₁, same, asks, waits⟩ : ∃ s₁ job₁,
        Runs W ⟨s, before ++ job :: after, k⟩ ⟨s₁, before ++ job₁ :: after, k⟩ ∧
        Inv ⟨s₁, before ++ job₁ :: after, k⟩ ∧ job₁.task = job.task ∧
        job₁.program = .ask r rest ∧ job₁.waits = true := by
      cases waits : job.waits with
      | true => exact ⟨s, job, .refl, inv, rfl, here, waits⟩
      | false =>
        exact ⟨_, { job with waits := true }, .single (.make s before after k job here waits),
          lively.make inv here waits, rfl, here, rfl⟩
    obtain ⟨reply, s₂, answers, inv₂⟩ := lively.answer inv₁ asks waits
    have taken : Step W _ _ := .answer s₁ s₂ before after k job₁ reply asks waits answers
    obtain ⟨s₃, job₃, run, inv₃, same₃, finished⟩ := ih reply inv₂ rfl
    exact ⟨s₃, job₃, (made.tail taken).trans run, inv₃, same₃.trans same, finished⟩

theorem finish_rest {s : Shared} {k : Nat} (after before : List (Job τ ρ))
    (inv : Inv ⟨s, before ++ after, k⟩)
    (finished : ∀ job ∈ before, ∃ result, job.program = .done result) :
    ∃ sys', Runs W ⟨s, before ++ after, k⟩ sys' ∧ Inv sys' ∧
      sys'.jobs.map (·.task) = (before ++ after).map (·.task) ∧ sys'.Over := by
  -- Jobs that have come to their ends gather in front of those that have not.
  induction after generalizing s before with
  | nil => exact ⟨_, .refl, inv, rfl, by simpa [System.Over] using finished⟩
  | cons job after ih =>
    obtain ⟨s₁, job₁, run, inv₁, same, ended⟩ := lively.finish job.program inv rfl
    rw [List.append_cons before job₁] at inv₁ run
    have finished₁ : ∀ other ∈ before ++ [job₁], ∃ result,
      other.program = .done result := by
      intro other mem
      rcases List.mem_append.1 mem with mem | mem
      · exact finished other mem
      · exact List.mem_singleton.1 mem ▸ ended
    obtain ⟨sys', run', inv', tasks, ended⟩ := ih (before ++ [job₁]) inv₁ finished₁
    refine ⟨sys', run.trans run', inv', ?_, ended⟩
    rw [tasks]
    simp only [List.map_append, List.map_cons, same, List.append_assoc, List.cons_append,
      List.nil_append]

theorem finish_all (inv : Inv sys) :
    ∃ sys', Runs W sys sys' ∧ Inv sys' ∧ sys'.jobs.map (·.task) = sys.jobs.map (·.task) ∧
      sys'.Over :=
  lively.finish_rest sys.jobs [] inv (by simp)

end Lively

/-- Nobody is left without an answer, in whatever order the jobs go on. -/
structure Answered (W : Workload τ ρ) (Inv : System τ ρ → Prop) : Prop where
  step : ∀ {sys sys'}, Inv sys → Step W sys sys' → Inv sys'
  goes : ∀ {s before after k} {job : Job τ ρ} {r : Request}
    {rest : r.Reply → Program surroundings ρ}, Inv ⟨s, before ++ job :: after, k⟩ →
    job.program = .ask r rest → job.waits = true → ∃ reply s', s.Answers job.number r reply s'

namespace Answered
variable {Inv : System τ ρ → Prop} (answered : Answered W Inv)
include answered

theorem runs (inv : Inv sys) (run : Runs W sys sys') : Inv sys' := by
  induction run with
  | refl => exact inv
  | tail _ step ih => exact answered.step ih step

theorem lively : Lively Inv where
  make inv asks idle := answered.step inv (.make _ _ _ _ _ asks idle)
  answer inv asks waits := by
    obtain ⟨reply, s', answers⟩ := answered.goes inv asks waits
    exact ⟨reply, s', answers, answered.step inv (.answer _ _ _ _ _ _ reply asks waits answers)⟩

theorem finish_all (inv : Inv sys) :
    ∃ sys', Runs W sys sys' ∧ sys'.jobs.map (·.task) = sys.jobs.map (·.task) ∧
      sys'.Over := by
  obtain ⟨sys', run, -, tasks, ended⟩ := answered.lively.finish_all inv
  exact ⟨sys', run, tasks, ended⟩

end Answered
end
end ControlPlane.Concurrent
