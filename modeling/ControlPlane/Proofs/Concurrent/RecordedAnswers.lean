import ControlPlane.Proofs.Concurrent.ContractInSystem

/-!
# Contracts about what one job has asked and heard

What a job has asked and heard is its own, whatever others do in between. So a condition on the
requests of a job that only speaks of its past can be shown for the job alone, and what holds of
every answer when it comes holds of all exchanges that jobs remember.
-/

namespace ControlPlane.Concurrent
open Control

/-- The contract of a job that minds its own past. Of the others it only relies on an invariant, and
whatever it does is allowed. -/
def minding (I : Shared → Prop) (fit : List Exchange → Request → Prop) (job : Nat) :
    Contract where
  job := job
  invariant := I
  rely _ _ := True
  allow _ _ := True
  fit past _ r := fit past r
  rely_refl _ := trivial
  rely_trans _ _ := trivial
  allow_refl _ := trivial

variable {τ ρ α : Type} {W : Workload τ ρ} {I : Shared → Prop}
  {fit : List Exchange → Request → Prop} {store : Store} {sys sys' : System τ ρ}
  {job : Job τ ρ} {k : Nat} {K : Request → Prop} {R : List Exchange → Prop}
  {past : List Exchange} {s : Shared}

theorem stable_minding : Stable (minding I fit k) fun past _ => R past := fun _ _ _ _ _ h => h

/-- Requests of a kind may be made at any time, and keep what has been learned. -/
theorem Safe.minds {P : α → Prop} {p : Program surroundings α} (within : p.Within K P)
    (fits : ∀ {past r}, K r → R past → fit past r)
    (grows : ∀ {past e}, K e.request → R past → R (past ++ [e])) (h : R past) :
    Safe (minding I fit k) (fun a past _ => P a ∧ R past) p past s := by
  induction p generalizing past s with
  | done a => exact ⟨within, h⟩
  | ask r rest ih =>
    intro s₁ _ _
    refine ⟨trivial, fun s₂ _ _ => ⟨fits within.1 h,
      fun reply s₃ _ => ⟨trivial, ?_⟩⟩⟩
    exact ih reply (within.2 reply) (grows within.1 h)

/-- A transition is tried with what has been learned, and if it is carried out, then with a record
that the store has. -/
theorem Safe.minds_writes {t : Transition} {A : Vm → List Exchange → Prop}
    (reads : K (.transact (.vm t.vm))) (passes : K (.pass .beforeSwap))
    (swaps : ∀ u, u.vm = t.vm → K (.transact (.swap u)))
    (fits : ∀ {past r}, K r → R past → fit past r)
    (grows : ∀ {past e}, K e.request → R past → R (past ++ [e]))
    (writes : ∀ {past s vm u}, I s → R past → s.store.vm? t.vm = some vm →
      t.expected.next? t.event = some u.state →
      A (u.apply vm) (past ++ [⟨.transact (.swap u), .ok (some (u.apply vm)), s.store⟩]))
        (h : R past) :
    Safe (minding I fit k) (Ends (fun written past _ => A written past) fun past _ => R past)
      t.run.run past s := by
  rw [Transition.run_eq]
  refine Safe.observe (P := fun past _ => R past) trivial stable_minding h
    (fun _ h _ => fits reads h) fun s found h _ _ => ?_
  replace h : R (past ++ [⟨.transact (.vm t.vm), found, s.store⟩]) := grows reads h
  cases found with
  | none => exact h
  | some found =>
    simp only [Transition.afterRead]
    cases checked : t.check found with
    | error failure => exact h
    | ok u =>
      obtain ⟨next, legal, -, -, -, e⟩ := Transition.check_ok checked
      have about : u.vm = t.vm := congrArg StateUpdate.vm e
      have swaps : K (.transact (.swap u)) := swaps u about
      refine Safe.observe (P := fun past _ => R past) trivial stable_minding h
        (fun _ h _ => fits passes h) fun s passed h _ _ => ?_
      replace h : R (_ ++ [⟨.pass .beforeSwap, passed, s.store⟩]) := grows passes h
      cases passed with
      | error failure => exact h
      | ok _ =>
        refine Safe.carry (P := fun past _ => R past) stable_minding h (fun _ h _ => fits swaps h)
          fun s h inv _ => ⟨trivial, ?_⟩
        cases reply : ((Transaction.swap u).apply s.store).1 with
        | error failure => exact grows swaps h
        | ok written =>
          cases written with
          | none => exact grows swaps h
          | some written =>
            obtain ⟨vm, stored, rfl⟩ := Store.written_of_swap reply
            have goes : u.state = next := congrArg StateUpdate.state e
            exact writes inv h (about ▸ stored) (legal.trans (congrArg some goes.symm))

theorem Safe.minds_run {t : Transition} {A : Vm → List Exchange → Prop}
    (reads : K (.transact (.vm t.vm))) (passes : K (.pass .beforeSwap))
    (swaps : ∀ u, K (.transact (.swap u))) (fits : ∀ {past r}, K r → R past → fit past r)
    (grows : ∀ {past e}, K e.request → R past → R (past ++ [e]))
    (writes : ∀ {past s vm u}, I s → R past → s.store.vm? t.vm = some vm →
      t.expected.next? t.event = some u.state →
      A (u.apply vm) (past ++ [⟨.transact (.swap u), .ok (some (u.apply vm)), s.store⟩]))
        (h : R past) :
    Safe (minding I fit k) (Ends (fun written past _ => A written past) fun past _ => R past)
      t.run.run past s :=
  Safe.minds_writes reads passes (fun u _ => swaps u) fits grows writes h

/-- The contract of a job of which only the past is looked at. -/
abbrev listening (job : Nat) : Contract := minding (fun _ => True) (fun _ _ => True) job

/-- What the past of a program tells may be added to what else it is known to come to. -/
theorem Safe.recall {C : Contract} {Q : α → Assertion} {T : α → List Exchange → Prop}
    {p : Program surroundings α} (h : Safe C Q p past s)
    (told : Safe (listening C.job) (fun a past _ => T a past) p past s) :
    Safe C (fun a past s => Q a past s ∧ T a past) p past s := by
  induction p generalizing past s with
  | done a => exact ⟨h, told⟩
  | ask r rest ih =>
    intro s₁ rely₁ inv₁
    obtain ⟨entered, h⟩ := h s₁ rely₁ inv₁
    obtain ⟨-, told⟩ := told s₁ trivial trivial
    refine ⟨entered, fun s₂ rely₂ inv₂ => ?_⟩
    obtain ⟨fit, h⟩ := h s₂ rely₂ inv₂
    obtain ⟨-, told⟩ := told s₂ trivial trivial
    refine ⟨fit, fun reply s₃ answers => ?_⟩
    obtain ⟨allowed, h⟩ := h reply s₃ answers
    exact ⟨allowed, ih reply h (told reply s₃ answers).2⟩

/-- A job whose program minds its past does so among any others that keep the invariant. -/
theorem minds_of_reaches (inv : ∀ {sys}, Reaches W (.start store) sys → I sys.shared)
    (safe : ∀ k s, Safe (minding I fit k) Anyhow (W.program job.task) [] s)
    (reached : Reaches W (.start store) sys) (mem : job ∈ sys.jobs) :
    Adheres (minding I fit job.number) Anyhow job sys.shared := by
  induction reached generalizing job with
  | refl => cases mem
  | @tail sys sys' reached move ih =>
    rcases move.adheres mem with ⟨task, rfl, rfl⟩ | ⟨job₀, mem₀, number, task, adheres⟩
    · exact ⟨fun _ => safe _ _, nofun⟩
    · rw [← number]
      refine adheres number stable_anyhow (inv reached) (inv (reached.tail move)) (fun _ => trivial)
        (@ih job₀ ?_ mem₀)
      rw [task]
      exact safe

/-- What holds of every answer when it comes holds of all that jobs remember. -/
theorem exchanges_of_reaches {F : Exchange → Prop}
    (inv : ∀ {sys}, Reaches W (.start store) sys → I sys.shared)
    (each : ∀ {s s' : Shared} {job : Nat} {r : Request} {reply : r.Reply}, I s →
      s.Answers job r reply s' → F ⟨r, reply, s.store⟩)
    (reached : Reaches W (.start store) sys) : ∀ job ∈ sys.jobs, ∀ e ∈ job.past, F e := by
  induction reached with
  | refl => exact fun _ mem => absurd mem List.not_mem_nil
  | @tail sys sys' reached move ih =>
    intro job mem e past
    cases move with
    | crash node => exact ih job (List.mem_filter.1 mem).1 e past
    | step step =>
      cases step with
      | launch _ task =>
        rcases List.mem_cons.1 mem with rfl | mem
        · cases past
        · exact ih job mem e past
      | make s before after k mover asks idle =>
        rcases mem_replaced mem with rfl | mem
        · exact ih mover (by simp) e past
        · exact ih job mem e past
      | answer s s' before after k mover reply asks waits answers =>
        rcases mem_replaced mem with rfl | mem
        · rcases List.mem_append.1 past with past | here
          · exact ih mover (by simp) e past
          · cases List.mem_singleton.1 here
            exact each (inv reached) answers
        · exact ih job mem e past

end ControlPlane.Concurrent
