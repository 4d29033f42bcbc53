import ControlPlane.Proofs.Concurrent.Schedule
import ControlPlane.Proofs.Transition.Requests

/-!
# Transitions from one version

Transitions of a machine that are all pinned to the record as it is stored, in any number and with
their requests in any order. Until the first of them swaps, the record is the one that all of them
were pinned to. From then on its version is another one, and no transition finds the version that
it is pinned to, whether it has read the record before or reads it now.
-/

namespace ControlPlane.Concurrent
open Control

/-- A transition that is pinned to a record and legal there. -/
structure Pinned (vm : Vm) where
  transition : Transition
  subject : transition.vm = vm.id
  version : transition.version = some vm.version
  expected : transition.expected = vm.state
  next : State
  legal : vm.state.next? transition.event = some next
  placed : next.HoldsHost → (transition.host.or vm.host).isSome

def race (vm : Vm) : Workload (Pinned vm) (Except Failure Vm) where
  program t := t.transition.run.run
  node _ := default

namespace Pinned
variable {vm w : Vm} {t : Pinned vm} {s s' : Shared} {job : Nat}

theorem check_isOk (t : Pinned vm) :
    ∃ u, t.transition.check vm = .ok u ∧ u.vm = vm.id ∧ u.Matches vm := by
  obtain ⟨⟨host, lastHost⟩, hosted⟩ := Transition.hosts_isOk t.placed
  have legal : t.transition.expected.next? t.transition.event = some t.next :=
    t.expected ▸ t.legal
  have pinned : t.transition.version.getD vm.version = vm.version := by rw [t.version]; rfl
  exact ⟨_, Transition.check_eq_ok legal pinned t.expected.symm hosted, t.subject,
    t.expected.symm, rfl⟩

theorem check_moved (t : Pinned vm) (moved : w.version = vm.version + 1) :
    t.transition.check w = .error (.conflict vm.id (.versionMoved vm.version w.version)) := by
  have legal : t.transition.expected.next? t.transition.event = some t.next :=
    t.expected ▸ t.legal
  have ne : t.transition.version.getD w.version ≠ w.version := by
    rw [t.version, moved]
    intro e
    have := congrArg UInt64.toNat e
    simp only [Option.getD_some, UInt64.toNat_add, UInt64.toNat_one] at this
    have := vm.version.toNat_lt
    omega
  rw [Transition.check_moved legal ne, t.version, t.subject]
  rfl

/-- What a transition still has to do that has not come to its swap. -/
inductive Pending (t : Pinned vm) : Program surroundings (Except Failure Vm) → Prop
  | begun : Pending t (.ask (.transact (.vm t.transition.vm)) t.transition.afterRead)
  | checked {u : StateUpdate} (h : t.transition.check vm = .ok u) :
      Pending t (.ask (.pass .beforeSwap) (t.transition.afterPass u))
  | ready {u : StateUpdate} (h : t.transition.check vm = .ok u) :
      Pending t (.ask (.transact (.swap u)) t.transition.afterSwap)

def Wins (t : Pinned vm) (w : Vm) (p : Program surroundings (Except Failure Vm)) : Prop :=
  p = .done (.ok w) ∧ ∃ u, t.transition.check vm = .ok u ∧ w = u.apply vm

/-- The transition has come too late: it read the record when it was another one, or had read it
before. -/
def Loses (t : Pinned vm) (p : Program surroundings (Except Failure Vm)) : Prop :=
  ∃ cause, p = .done (.error (.conflict vm.id cause)) ∧
    (cause = .versionMoved vm.version (vm.version + 1) ∨
      cause = .changedDuring t.transition.event)

section
variable {r : Request} {rest : r.Reply → Program surroundings (Except Failure Vm)}
  {reply : r.Reply}

/-- As long as the record is the one that the transition is pinned to, it goes on or wins. -/
theorem Pending.answer (h : Pending t (.ask r rest)) (stored : s.store.vm? vm.id = some vm)
    (answers : s.Answers job r reply s') :
    Pending t (rest reply) ∧ s'.store.vm? vm.id = some vm ∨
      ∃ w, t.Wins w (rest reply) ∧ s'.store.vm? vm.id = some w := by
  obtain ⟨u, checked, subject, fits⟩ := t.check_isOk
  cases h with
  | begun =>
    obtain ⟨-, rfl, rfl⟩ := answers
    refine .inl ⟨?_, stored⟩
    have read : s.store.vm? t.transition.vm = some vm := t.subject ▸ stored
    simp only [Transaction.apply, read, Transition.afterRead, checked]
    exact .checked checked
  | checked h =>
    obtain ⟨rfl, rfl⟩ := answers
    exact .inl ⟨.ready h, stored⟩
  | ready h =>
    obtain ⟨-, rfl, rfl⟩ := answers
    rw [checked] at h
    cases h
    have found : s.store.vm? u.vm = some vm := subject ▸ stored
    refine .inr ⟨u.apply vm, ⟨?_, u, checked, rfl⟩, ?_⟩
    · simp only [Transaction.apply, Store.swap_matching found fits, Transition.afterSwap]
    · simp only [Transaction.vm?_apply, stored, Transaction.onVm, Option.map_some]
      rw [if_pos ⟨subject, fits⟩]

/-- Once the record has moved on, a transition goes on or loses, and the record stays. -/
theorem Pending.answer_moved (h : Pending t (.ask r rest)) (stored : s.store.vm? vm.id = some w)
    (moved : w.version = vm.version + 1) (answers : s.Answers job r reply s') :
    (Pending t (rest reply) ∨ t.Loses (rest reply)) ∧ s'.store.vm? vm.id = some w := by
  obtain ⟨u, checked, subject, fits⟩ := t.check_isOk
  cases h with
  | begun =>
    obtain ⟨-, rfl, rfl⟩ := answers
    refine ⟨.inr ⟨_, ?_, .inl rfl⟩, stored⟩
    have read : s.store.vm? t.transition.vm = some w := t.subject ▸ stored
    simp only [Transaction.apply, read, Transition.afterRead, t.check_moved moved, moved]
  | checked h =>
    obtain ⟨rfl, rfl⟩ := answers
    exact ⟨.inl (.ready h), stored⟩
  | ready h =>
    obtain ⟨-, rfl, rfl⟩ := answers
    rw [checked] at h
    cases h
    have found : s.store.vm? u.vm = some w := subject ▸ stored
    have stale : ¬ u.Matches w := by
      intro fits'
      have e : vm.version = vm.version + 1 := fits.2.trans (fits'.2.symm.trans moved)
      have := congrArg UInt64.toNat e
      simp only [UInt64.toNat_add, UInt64.toNat_one] at this
      have := vm.version.toNat_lt
      omega
    simp only [Transaction.apply, Store.swap_stale found stale]
    exact ⟨.inr ⟨_, by simp only [Transition.afterSwap, t.subject], .inr rfl⟩, stored⟩

/-- A transition that goes on is answered, unless the version of its record would run over. -/
theorem Pending.answered (h : Pending t (.ask r rest))
    (room : ∀ w, s.store.vm? vm.id = some w → w.version = vm.version →
      w.version.toNat + 1 < UInt64.size) : ∃ reply s', s.Answers job r reply s' := by
  cases h with
  | begun => exact ⟨_, _, trivial, rfl, rfl⟩
  | checked h => exact ⟨_, _, rfl, rfl⟩
  | ready h =>
    obtain ⟨u, checked, subject, fits⟩ := t.check_isOk
    rw [checked] at h
    cases h
    refine ⟨_, _, fun w stored fits' => room w (subject ▸ stored) ?_, rfl, rfl⟩
    exact fits'.2.trans fits.2.symm

end
end Pinned

/-- How far a race has come: nobody has won yet, or one transition has won and the others go on or
have lost. -/
inductive Race (vm : Vm) (sys : System (Pinned vm) (Except Failure Vm)) : Prop
  | even (stored : sys.shared.store.vm? vm.id = some vm)
      (pending : ∀ job ∈ sys.jobs, job.task.Pending job.program)
  | won (w : Vm) (winner : Job (Pinned vm) (Except Failure Vm)) (mem : winner ∈ sys.jobs)
      (wins : winner.task.Wins w winner.program) (stored : sys.shared.store.vm? vm.id = some w)
      (others : ∀ job ∈ sys.jobs, job.number ≠ winner.number →
        job.task.Pending job.program ∨ job.task.Loses job.program)

namespace Race
variable {vm : Vm} {sys sys' : System (Pinned vm) (Except Failure Vm)}

theorem pending_launch (t : Pinned vm) : t.Pending ((race vm).program t) := by
  change t.Pending t.transition.run.run
  rw [Transition.run_eq]
  exact .begun

theorem launch (h : Race vm sys) (t : Pinned vm) : Race vm (sys.launch (race vm) t) := by
  cases h with
  | even stored pending =>
    refine .even stored fun job mem => ?_
    rcases List.mem_cons.1 mem with rfl | mem
    · exact pending_launch t
    · exact pending job mem
  | won w winner mem wins stored others =>
    refine .won w winner (List.mem_cons_of_mem _ mem) wins stored fun job mem ne => ?_
    rcases List.mem_cons.1 mem with rfl | mem
    · exact .inl (pending_launch t)
    · exact others job mem ne

section
variable {s s' : Shared} {before after : List (Job (Pinned vm) (Except Failure Vm))} {k : Nat}
  {job : Job (Pinned vm) (Except Failure Vm)} {r : Request}
  {rest : r.Reply → Program surroundings (Except Failure Vm)}

theorem ne_of_wins {w : Vm} {winner : Job (Pinned vm) (Except Failure Vm)}
    (wins : winner.task.Wins w winner.program) (asks : job.program = .ask r rest) :
    winner ≠ job := by
  rintro rfl
  rw [wins.1] at asks
  cases asks

theorem pending_of_asks (h : Race vm ⟨s, before ++ job :: after, k⟩)
    (numbered : System.Numbered ⟨s, before ++ job :: after, k⟩)
    (asks : job.program = .ask r rest) :
    job.task.Pending (.ask r rest) := by
  cases h with
  | even stored pending => exact asks ▸ pending job (by simp)
  | won w winner mem wins stored others =>
    have ne : job.number ≠ winner.number := fun same =>
      ne_of_wins wins asks (numbered.eq_of_number mem (by simp) same.symm)
    rcases others job (by simp) ne with goes | ⟨cause, done, -⟩
    · exact asks ▸ goes
    · rw [asks] at done
      cases done

theorem make (h : Race vm ⟨s, before ++ job :: after, k⟩) (asks : job.program = .ask r rest) :
    Race vm ⟨s.enter job.number r, before ++ { job with waits := true } :: after, k⟩ := by
  have store : (s.enter job.number r).store = s.store := by cases r <;> rfl
  cases h with
  | even stored pending =>
    refine .even (store ▸ stored) fun other mem => ?_
    rcases mem_replaced mem with rfl | mem
    · exact pending job (by simp)
    · exact pending other mem
  | won w winner mem wins stored others =>
    refine .won w winner (mem_replaced_of_ne mem (ne_of_wins wins asks)) wins (store ▸ stored)
      fun other mem ne => ?_
    rcases mem_replaced mem with rfl | mem
    · exact others job (by simp) ne
    · exact others other mem ne

theorem answer (h : Race vm ⟨s, before ++ job :: after, k⟩)
    (numbered : System.Numbered ⟨s, before ++ job :: after, k⟩)
    (asks : job.program = .ask r rest) {reply : r.Reply}
    (answers : s.Answers job.number r reply s') :
    Race vm ⟨s', before ++ job.resume r reply s.store (rest reply) :: after, k⟩ := by
  have goes := h.pending_of_asks numbered asks
  cases h with
  | even stored pending =>
    rcases goes.answer stored answers with ⟨goes, stored⟩ | ⟨w, wins, stored⟩
    · refine .even stored fun other mem => ?_
      rcases mem_replaced mem with rfl | mem
      · exact goes
      · exact pending other mem
    · refine .won w (job.resume r reply s.store (rest reply)) (by simp) wins stored
        fun other mem ne => ?_
      rcases mem_replaced mem with rfl | mem
      · exact absurd rfl ne
      · exact .inl (pending other mem)
  | won w winner mem wins stored others =>
    obtain ⟨u, -, rfl⟩ := wins.2
    have ⟨goes, stored⟩ := goes.answer_moved stored rfl answers
    refine .won _ winner (mem_replaced_of_ne mem (ne_of_wins wins asks)) wins stored
      fun other mem ne => ?_
    rcases mem_replaced mem with rfl | mem
    · exact goes
    · exact others other mem ne

end

theorem step (h : Race vm sys) (numbered : sys.Numbered) (step : Step (race vm) sys sys') :
    Race vm sys' := by
  cases step with
  | launch _ t => exact h.launch t
  | make s before after k job asks idle => exact h.make asks
  | answer s s' before after k job reply asks waits answers => exact h.answer numbered asks answers

theorem start {store : Store} (stored : store.vm? vm.id = some vm) :
    Race vm (System.start store) :=
  .even stored (by simp [System.start])

theorem answered (room : vm.version.toNat + 1 < UInt64.size) :
    Answered (race vm) fun sys => Race vm sys ∧ sys.Numbered where
  step h step := ⟨h.1.step h.2 step, h.2.step step⟩
  goes := by
    rintro s before after k job r rest ⟨h, numbered⟩ asks -
    exact (h.pending_of_asks numbered asks).answered fun w _ same => same ▸ room

end Race

/-- Of any number of transitions that are pinned to the stored record, exactly one succeeds. All
others are in conflict, and the record is what the one has written. However far they have come, all
of them can come back. -/
theorem one_transition_wins {store : Store} {vm : Vm} (stored : store.vm? vm.id = some vm)
    (room : vm.version.toNat + 1 < UInt64.size)
    {sys : System (Pinned vm) (Except Failure Vm)} (run : Runs (race vm) (System.start store) sys)
    (some_job : sys.jobs ≠ []) :
    (∃ sys', Runs (race vm) sys sys' ∧ sys'.jobs.map (·.task) = sys.jobs.map (·.task) ∧
      sys'.Over) ∧
      (sys.Over → ∃ before winner after u, sys.jobs = before ++ winner :: after ∧
        winner.task.transition.check vm = .ok u ∧
        winner.program = .done (.ok (u.apply vm)) ∧
        (∀ job ∈ before ++ after, job.task.Loses job.program) ∧
        sys.shared.store.vm? vm.id = some (u.apply vm) ∧
        (u.apply vm).version.toNat = vm.version.toNat + 1) := by
  have answered := Race.answered room
  have inv := answered.runs ⟨.start stored, .start store⟩ run
  refine ⟨answered.finish_all inv, fun finished => ?_⟩
  obtain ⟨race, numbered⟩ := inv
  have ended : ∀ job ∈ sys.jobs, ¬ job.task.Pending job.program := by
    intro job mem goes
    obtain ⟨result, done⟩ := finished job mem
    rw [done] at goes
    cases goes
  cases race with
  | even _ pending =>
    obtain ⟨job, mem⟩ := List.exists_mem_of_ne_nil _ some_job
    exact absurd (pending job mem) (ended job mem)
  | won w winner mem wins stored others =>
    obtain ⟨done, u, checked, rfl⟩ := wins
    obtain ⟨before, after, split⟩ := List.append_of_mem mem
    refine ⟨before, winner, after, u, split, checked, done, fun job mem' => ?_, stored,
      UInt64.toNat_succ room⟩
    have there : job ∈ sys.jobs := by
      rw [split]
      simp only [List.mem_append, List.mem_cons] at mem' ⊢
      rcases mem' with h | h <;> simp [h]
    have ne : job.number ≠ winner.number := by
      have distinct := numbered.distinct
      rw [split, List.pairwise_append, List.pairwise_cons] at distinct
      rcases List.mem_append.1 mem' with h | h
      · exact distinct.2.2 job h winner (by simp)
      · exact (distinct.2.1.1 job h).symm
    exact (others job there ne).resolve_left (ended job there)

def sleeper : Vm := .register ⟨1⟩ "i-1" "sleeper" ⟨1⟩ ⟨1⟩

def wake (host : HostId) : Pinned sleeper where
  transition := ⟨sleeper.id, .stopped, .startRequested, some host, some 0⟩
  subject := rfl
  version := rfl
  expected := rfl
  next := .starting
  legal := rfl
  placed _ := rfl

/-- Three starts on three hosts. The second reads first and swaps after the first has; the third
reads when the record has moved on. -/
def threeStarts : List (Turn (Pinned sleeper)) :=
  [.launch (wake ⟨5⟩), .launch (wake ⟨6⟩), .launch (wake ⟨7⟩)] ++ advance 1 2 .silent ++
    advance 0 3 .silent ++ advance 1 1 .silent ++ advance 2 1 .silent

theorem one_of_three_starts_wins :
    ∃ sys, play? (race sleeper) (.start { vms := .ofList [sleeper] }) threeStarts = some sys ∧
      ∃ before winner after u, sys.jobs = before ++ winner :: after ∧
        winner.task.transition.check sleeper = .ok u ∧
        winner.program = .done (.ok (u.apply sleeper)) ∧
        (∀ job ∈ before ++ after, job.task.Loses job.program) ∧
        sys.shared.store.vm? sleeper.id = some (u.apply sleeper) ∧
        (u.apply sleeper).version.toNat = sleeper.version.toNat + 1 := by
  have ends : ((play? (race sleeper) (.start { vms := .ofList [sleeper] }) threeStarts).any
      fun sys => sys.jobs.length = 3 ∧ sys.Over) = true := by decide
  obtain ⟨sys, played, ends⟩ := (Option.any_eq_true ..).1 ends
  obtain ⟨three, finished⟩ := of_decide_eq_true ends
  refine ⟨sys, played, ?_⟩
  exact (one_transition_wins (by decide) (by decide) (runs_of_play? played)
    (List.ne_nil_of_length_eq_add_one three)).2 finished

end ControlPlane.Concurrent
