import ControlPlane.Proofs.Concurrent.QuietRequests
import ControlPlane.Proofs.Concurrent.System

/-!
# One job among others

A job keeps to a contract for which its program is safe, as long as it can rely on what the others
do. So each move of all jobs together is looked at from one job: either it is the job that goes on,
or it stands still while others do something.
-/

namespace ControlPlane.Concurrent
open Control

def Awaits (C : Contract) {α : Type} (Q : α → Assertion) : Program surroundings α → Assertion
  | .done _, _, _ => False
  | .ask r rest, past, s => ∀ s₂, C.rely s s₂ → C.invariant s₂ → C.fit past s₂ r ∧
      ∀ reply s₃, s₂.Answers C.job r reply s₃ →
        C.allow s₂ s₃ ∧ Safe C Q (rest reply) (past ++ [⟨r, reply, s₂.store⟩]) s₃

theorem Awaits.of_rely {C : Contract} {α : Type} {Q : α → Assertion}
    {p : Program surroundings α} {past : List Exchange} {s s' : Shared} (rely : C.rely s s')
    (h : Awaits C Q p past s) :
    Awaits C Q p past s' := by
  cases p with
  | done a => exact h
  | ask r rest => exact fun s₂ rely₂ => h s₂ (C.rely_trans rely rely₂)

abbrev Anyhow {α : Type} (_ : α) (_ : List Exchange) (_ : Shared) : Prop := True

variable {τ ρ : Type} {C : Contract} {W : Workload τ ρ} {Q : ρ → Assertion}

structure Adheres (C : Contract) (Q : ρ → Assertion) (job : Job τ ρ) (s : Shared) : Prop where
  goes : job.waits = false → Safe C Q job.program job.past s
  awaits : job.waits = true → Awaits C Q job.program job.past s

variable {job job' : Job τ ρ} {s s' : Shared} {sys sys' : System τ ρ}

theorem Adheres.of_rely (stable : ∀ a, Stable C (Q a)) (rely : C.rely s s') (inv : C.invariant s')
    (h : Adheres C Q job s) : Adheres C Q job s' :=
  ⟨fun idle => (h.goes idle).of_rely stable rely inv,
    fun waits => (h.awaits waits).of_rely rely⟩

theorem stable_anyhow {α : Type} (a : α) : Stable C (Anyhow a) := fun _ _ _ _ _ _ => trivial

/-- What a job that waits for an answer has asked for, it may ask for. -/
theorem Adheres.fit {r : Request} {rest : r.Reply → Program surroundings ρ}
    (h : Adheres C Q job s) (inv : C.invariant s) (waits : job.waits = true)
    (asks : job.program = .ask r rest) :
    C.fit job.past s r := by
  have awaits := h.awaits waits
  rw [asks] at awaits
  exact (awaits s (C.rely_refl s) inv).1

/-- One job makes a request or gets an answer. -/
structure Advance (sys sys' : System τ ρ) (job job' : Job τ ρ) : Prop where
  split : ∃ before after, sys.jobs = before ++ job :: after ∧
    sys'.jobs = before ++ job' :: after
  next : sys'.next = sys.next
  number : job'.number = job.number
  task : job'.task = job.task
  turns : job'.waits ≠ job.waits
  store : sys'.shared.store = sys.shared.store ∨
    ∃ t rest, job.program = .ask (.transact t) rest ∧
    job.waits = true ∧ sys'.shared.store = (t.apply sys.shared.store).2
  adheres : ∀ {C : Contract} {Q : ρ → Assertion}, C.job = job.number →
    C.invariant sys.shared →
    Adheres C Q job sys.shared → C.allow sys.shared sys'.shared ∧ Adheres C Q job' sys'.shared

section
variable {before after : List (Job τ ρ)} {k : Nat} {r : Request}
  {rest : r.Reply → Program surroundings ρ} (asks : job.program = .ask r rest)
include asks

theorem Advance.made (idle : job.waits = false) :
    Advance ⟨s, before ++ job :: after, k⟩
      ⟨s.enter job.number r, before ++ { job with waits := true } :: after, k⟩ job
      { job with waits := true } := by
  refine ⟨⟨before, after, rfl, rfl⟩, rfl, rfl, rfl, ?_, ?_, ?_⟩
  · rw [idle]
    exact nofun
  · left
    cases r <;> rfl
  · intro C Q mine inv h
    have safe := h.goes idle
    rw [asks] at safe
    obtain ⟨allowed, awaits⟩ := safe s (C.rely_refl s) inv
    have entered : s.enter C.job r = s.enter job.number r := by rw [mine]
    rw [entered] at allowed awaits
    refine ⟨allowed, nofun, fun _ => ?_⟩
    simp only [asks]
    exact awaits

theorem Advance.answered (waits : job.waits = true) {reply : r.Reply}
    (answers : s.Answers job.number r reply s') :
    Advance ⟨s, before ++ job :: after, k⟩
      ⟨s', before ++ job.resume r reply s.store (rest reply) :: after, k⟩ job
      (job.resume r reply s.store (rest reply)) := by
  refine ⟨⟨before, after, rfl, rfl⟩, rfl, rfl, rfl, ?_, ?_, ?_⟩
  · rw [waits]
    exact nofun
  · rcases Shared.store_of_answers answers with same | ⟨t, rfl, same⟩
    · exact .inl same
    · exact .inr ⟨t, _, asks, waits, same⟩
  · intro C Q mine inv h
    have awaits := h.awaits waits
    rw [asks] at awaits
    obtain ⟨-, next⟩ := awaits s (C.rely_refl s) inv
    obtain ⟨allowed, safe⟩ := next reply s' (mine.symm ▸ answers)
    exact ⟨allowed, fun _ => safe, nofun⟩

end

theorem Step.advances (step : Step W sys sys') :
    (∃ task, sys' = sys.launch W task) ∨ ∃ job job', Advance sys sys' job job' := by
  cases step with
  | launch _ task => exact .inl ⟨task, rfl⟩
  | make s before after k job asks idle => exact .inr ⟨_, _, .made asks idle⟩
  | answer s s' before after k job reply asks waits answers =>
    exact .inr ⟨_, _, .answered asks waits answers⟩

theorem Advance.numbered (h : Advance sys sys' job job') (numbered : sys.Numbered) :
    sys'.Numbered := by
  obtain ⟨shared, jobs, k⟩ := sys
  obtain ⟨shared', jobs', k'⟩ := sys'
  obtain ⟨⟨before, after, rfl, rfl⟩, rfl, number, -⟩ := h
  exact numbered.replace number

theorem Advance.mem (h : Advance sys sys' job job') : job ∈ sys.jobs ∧ job' ∈ sys'.jobs := by
  obtain ⟨before, after, split, split'⟩ := h.split
  rw [split, split']
  simp

theorem Advance.kept (h : Advance sys sys' job job') {other : Job τ ρ}
    (mem : other ∈ sys'.jobs) :
    other = job' ∨ other ∈ sys.jobs := by
  obtain ⟨before, after, split, split'⟩ := h.split
  rw [split'] at mem
  rw [split]
  exact mem_replaced mem

theorem Step.keeps (step : Step W sys sys') (mem : job ∈ sys.jobs) :
    ∃ job' ∈ sys'.jobs, job'.task = job.task := by
  rcases step.advances with ⟨task, rfl⟩ | ⟨mover, moved, advance⟩
  · exact ⟨job, List.mem_cons_of_mem _ mem, rfl⟩
  · obtain ⟨before, after, split, split'⟩ := advance.split
    rw [split] at mem
    by_cases here : job = mover
    · exact ⟨moved, advance.mem.2, here ▸ advance.task⟩
    · exact ⟨job, split' ▸ mem_replaced_of_ne mem here, rfl⟩

/-- A job that stands still while another one goes on has another number. -/
theorem Advance.bystander (h : Advance sys sys' job job') (numbered : sys.Numbered)
    {other : Job τ ρ} (mem : other ∈ sys.jobs) (mem' : other ∈ sys'.jobs) :
    other.number ≠ job.number := by
  intro same
  have here : other = job := numbered.eq_of_number mem h.mem.1 same
  have there : other = job' :=
    (h.numbered numbered).eq_of_number mem' h.mem.2 (same.trans h.number.symm)
  exact h.turns (congrArg Job.waits (there.symm.trans here))

/-- After a move of all jobs, each job has just begun, or it was there and has kept to its
contract. -/
theorem Move.adheres (move : Move W sys sys') (mem : job ∈ sys'.jobs) :
    (∃ task, sys' = sys.launch W task ∧
      job = ⟨sys.next, task, [], false, W.program task⟩) ∨
      ∃ job₀ ∈ sys.jobs, job₀.number = job.number ∧ job₀.task = job.task ∧
        ∀ {C : Contract} {Q : ρ → Assertion}, C.job = job.number →
          (∀ a, Stable C (Q a)) → C.invariant sys.shared → C.invariant sys'.shared →
          (job ∈ sys.jobs → C.rely sys.shared sys'.shared) →
          Adheres C Q job₀ sys.shared → Adheres C Q job sys'.shared := by
  have stands : job ∈ sys.jobs → ∃ job₀ ∈ sys.jobs, job₀.number = job.number ∧
    job₀.task = job.task ∧
      ∀ {C : Contract} {Q : ρ → Assertion}, C.job = job.number → (∀ a, Stable C (Q a)) →
        C.invariant sys.shared → C.invariant sys'.shared →
        (job ∈ sys.jobs → C.rely sys.shared sys'.shared) →
        Adheres C Q job₀ sys.shared → Adheres C Q job sys'.shared :=
    fun mem =>
    ⟨job, mem, rfl, rfl, fun _ stable _ inv rely h => h.of_rely stable (rely mem) inv⟩
  cases move with
  | crash node => exact .inr (stands (List.mem_filter.1 mem).1)
  | step step =>
    rcases step.advances with ⟨task, rfl⟩ | ⟨mover, moved, advance⟩
    · rcases List.mem_cons.1 mem with rfl | mem
      · exact .inl ⟨task, rfl, rfl⟩
      · exact .inr (stands mem)
    · rcases advance.kept mem with rfl | mem
      · refine .inr ⟨mover, advance.mem.1, advance.number.symm, advance.task.symm, ?_⟩
        intro C Q mine _ inv _ _ h
        exact (advance.adheres (mine.trans advance.number) inv h).2
      · exact .inr (stands mem)

end ControlPlane.Concurrent
