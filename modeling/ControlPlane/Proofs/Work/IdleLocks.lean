import ControlPlane.Proofs.Logs
import ControlPlane.Proofs.Work.LockHolders
import ControlPlane.Simulation.Order

/-!
# Locks that stay in the table

A lock enters the table when somebody looks it up, and is taken out when somebody clears the table
and nobody refers to it. To let go of a lock and to clear the table are two steps, and not everybody
takes the second. Whoever is the last to refer to a lock leaves it in the table, where it stays
until the lock is looked up again or the table is cleared.
-/

namespace ControlPlane.Work.Locks
variable {l l' : Locks} {name : LockName} {d : Dealing} {log : List Dealing}

/-- Somebody holds the lock of a machine or waits for it. -/
def Sought (l : Locks) (name : LockName) : Prop := name ∈ l.claims.map (·.name)

def Listed (l : Locks) (name : LockName) : Prop := name ∈ l.entries.map (·.name)

/-- The machine has a lock in the table that nobody seeks. -/
def Idle (l : Locks) (name : LockName) : Prop := l.Listed name ∧ ¬ l.Sought name

instance (l : Locks) (name : LockName) : Decidable (l.Idle name) :=
  inferInstanceAs
    (Decidable (name ∈ l.entries.map (·.name) ∧ ¬ name ∈ l.claims.map (·.name)))

/-- What callers have done to the locks of a ledger since there were none. -/
inductive History : List Dealing → Locks → Prop
  | start : History [] {}
  | step {log : List Dealing} {l l' : Locks} {d : Dealing} (past : History log l)
      (step : Step l d l') :
    History (log ++ [d]) l'

theorem exists_history (run : Steps {} l) : ∃ log, History log l := by
  induction run with
  | refl => exact ⟨[], .start⟩
  | tail _ step ih =>
    obtain ⟨d, step⟩ := step
    obtain ⟨log, past⟩ := ih
    exact ⟨log ++ [d], past.step step⟩

/-! ### One step -/

def seekers (l : Locks) (name : LockName) : Nat := (l.claims.map (·.name)).count name

theorem sought_iff : l.Sought name ↔ 0 < l.seekers name := List.count_pos_iff.symm

theorem Sound.mem_entries (h : l.Sound) {c : Claim} (mem : c ∈ l.claims) :
    ⟨c.name, c.lock⟩ ∈ l.entries :=
  List.mem_of_find?_eq_some (h.entry c mem)

theorem Sound.listed (h : l.Sound) (sought : l.Sought name) : l.Listed name := by
  obtain ⟨c, mem, rfl⟩ := List.mem_map.1 sought
  exact List.mem_map_of_mem (h.mem_entries mem)

theorem claims_forget (l : Locks) (name : LockName) : (l.forget name).claims = l.claims := by
  unfold forget
  split
  · rfl
  · split <;> rfl

theorem Step.seekers (step : Step l d l') (name : LockName) :
    l'.seekers name + (if d = .leave name then 1 else 0) =
      l.seekers name + (if d = .enter name then 1 else 0) := by
  cases step with
  | enter owner other =>
    simp [Locks.seekers, Locks.enter, claims_lookup, List.count_append, List.count_singleton]
  | grant split free => simp [Locks.seekers, split]
  | loosen split => simp [Locks.seekers, split]
  | leave split => simp [Locks.seekers, split, List.count_append, List.count_cons, Nat.add_assoc]
  | forget other => simp [Locks.seekers, claims_forget]

theorem listed_lookup {other : LockName} :
    Listed (l.lookup other).2 name ↔ l.Listed name ∨ other = name := by
  unfold lookup
  split
  next e found =>
    have named : e.name = other := by simpa using List.find?_some found
    refine (or_iff_left_of_imp ?_).symm
    rintro rfl
    exact List.mem_map.2 ⟨e, List.mem_of_find?_eq_some found, named⟩
  · simp [Listed, eq_comm, or_comm]

theorem listed_forget_of_ne {other : LockName} (ne : other ≠ name) :
    (l.forget other).Listed name ↔ l.Listed name := by
  unfold forget
  split
  · rfl
  · split
    · rfl
    · simp only [Listed, List.mem_map, List.mem_filter, decide_eq_true_eq]
      refine exists_congr fun e => and_congr_left fun named =>
        ⟨And.left, fun mem => ⟨mem, ?_⟩⟩
      exact fun same => ne (same.symm.trans named)

theorem Step.listed (step : Step l d l') (kept : d ≠ .forget name) :
    l'.Listed name ↔ l.Listed name ∨ d = .enter name := by
  cases step with
  | enter owner other =>
    refine listed_lookup.trans (or_congr_right ?_)
    exact ⟨congrArg _, Dealing.enter.inj⟩
  | forget other =>
    refine (listed_forget_of_ne fun same => kept (congrArg _ same)).trans ?_
    exact (or_iff_left nofun).symm
  | grant | loosen | leave => exact (or_iff_left nofun).symm

/-- What is looked for by its number is looked for by its name. -/
theorem Numbered.isWanted_iff (h : l.Numbered) (sound : l.Sound) {e : LockEntry}
    (found : l.entry? name = some e) : l.isWanted e.lock = true ↔ l.Sought name := by
  have named : e.name = name := by simpa using List.find?_some found
  have mem : e ∈ l.entries := List.mem_of_find?_eq_some found
  simp only [isWanted, List.any_eq_true, decide_eq_true_eq]
  constructor
  · rintro ⟨c, memC, same⟩
    have entry := h.apart _ (sound.mem_entries memC) e mem same
    rw [← named, ← entry]
    exact List.mem_map_of_mem memC
  · intro sought
    obtain ⟨c, memC, rfl⟩ := List.mem_map.1 sought
    have entry := sound.entry c memC
    rw [found] at entry
    exact ⟨c, memC, (congrArg LockEntry.lock (Option.some.inj entry)).symm⟩

theorem Numbered.not_idle_forget (h : l.Numbered) (sound : l.Sound) :
    ¬ (l.forget name).Idle name := by
  rintro ⟨listed, unsought⟩
  rw [Sought, claims_forget] at unsought
  unfold Locks.forget at listed
  split at listed
  next missing =>
    obtain ⟨e, mem, named⟩ := List.mem_map.1 listed
    exact List.find?_eq_none.1 missing e mem (decide_eq_true named)
  next e found =>
    rw [if_neg fun wanted => unsought ((h.isWanted_iff sound found).1 wanted)] at listed
    obtain ⟨e, mem, named⟩ := List.mem_map.1 listed
    exact of_decide_eq_true (List.mem_filter.1 mem).2 named

theorem Numbered.step (h : l.Numbered) (step : Step l d l') : l'.Numbered := by
  cases step with
  | enter owner name => exact ⟨(h.lookup name).below, (h.lookup name).apart⟩
  | forget name => exact h.forget name
  | grant | loosen | leave => exact ⟨h.below, h.apart⟩

theorem Numbered.idle_step (h : l.Numbered) (sound : l.Sound) (step : Step l d l') :
    l'.Idle name ↔ (l.Idle name ∧ d ≠ .enter name ∧ d ≠ .forget name) ∨
      (d = .leave name ∧ l.seekers name = 1) := by
  by_cases cleared : d = .forget name
  · subst cleared
    cases step with
    | forget => exact iff_of_false (h.not_idle_forget sound) (by simp)
  · have count := step.seekers name
    simp only [Idle, sought_iff, step.listed cleared]
    have found : 0 < l.seekers name → l.Listed name :=
      fun sought => sound.listed (sought_iff.2 sought)
    by_cases enters : d = .enter name
    · subst enters
      simp at count ⊢
      omega
    by_cases leaves : d = .leave name
    · subst leaves
      simp at count ⊢
      grind
    · have same : l'.seekers name = l.seekers name := by simpa [enters, leaves] using count
      rw [same]
      simp [enters, leaves, cleared]

/-! ### All steps -/

namespace History

theorem sound (history : History log l) : l.Sound := by
  induction history with
  | start => exact sound_empty
  | step _ step ih => exact ih.step step

theorem numbered (history : History log l) : l.Numbered := by
  induction history with
  | start => exact numbered_empty
  | step _ step ih => exact ih.step step

/-- Those who seek a lock have looked it up and have not left it. -/
theorem seekers (history : History log l) (name : LockName) :
    l.seekers name + log.count (.leave name) = log.count (.enter name) := by
  induction history with
  | start => rfl
  | step _ step ih =>
    have count := step.seekers name
    simp only [List.count_append, List.count_singleton, beq_iff_eq]
    omega

theorem idle_iff (history : History log l) : l.Idle name ↔
    ∃ before later, log = before ++ .leave name :: later ∧
      before.count (.enter name) = before.count (.leave name) + 1 ∧
      ∀ d ∈ later, d ≠ .enter name ∧ d ≠ .forget name := by
  -- The induction takes off the last step: it is the one that left the lock behind, or comes later.
  induction history with
  | start => simp [Idle, Listed]
  | @step log l l' last past step ih =>
    have count := past.seekers name
    rw [past.numbered.idle_step past.sound step, ih]
    constructor
    · rintro (⟨⟨before, later, rfl, alone, unsettled⟩, untouched⟩ | ⟨rfl, alone⟩)
      · refine ⟨before, later ++ [last], by simp, alone, fun d mem => ?_⟩
        rcases List.mem_append.1 mem with mem | mem
        · exact unsettled d mem
        · rwa [List.mem_singleton.1 mem]
      · exact ⟨log, [], rfl, by omega, by simp⟩
    · rintro ⟨before, later, split, alone, unsettled⟩
      rcases append_singleton_split split with ⟨rfl, rfl, -⟩ | ⟨earlier, rfl, there⟩
      · exact .inr ⟨rfl, by omega⟩
      · refine .inl ⟨⟨before, earlier, there, alone, fun d mem => ?_⟩, ?_⟩
        · exact unsettled d (List.mem_append_left _ mem)
        · exact unsettled _ (by simp)

end History

/-- A lock that nobody seeks is in the table exactly if the last caller that sought it left it
there, and since then nobody has looked it up or cleared the table of it. So the table holds nothing
but locks that somebody seeks if whoever leaves a lock clears the table afterwards, whether it held
the lock or gave up waiting. -/
theorem idle_locks_were_left_untidily (history : History log l) :
    (∀ name, l.Idle name ↔ ∃ before later, log = before ++ .leave name :: later ∧
      before.count (.enter name) = before.count (.leave name) + 1 ∧
      ∀ d ∈ later, d ≠ .enter name ∧ d ≠ .forget name) ∧
    ((∀ before name later, log = before ++ .leave name :: later → .forget name ∈ later) →
      ∀ name, l.Listed name → l.Sought name) := by
  refine ⟨fun name => history.idle_iff, fun tidy name listed => ?_⟩
  by_contra unsought
  obtain ⟨before, later, split, -, unsettled⟩ := history.idle_iff.1 ⟨listed, unsought⟩
  exact (unsettled _ (tidy before name later split)).2 rfl

/-- The holder lets go of a lock and clears the table while another caller still refers to the lock.
This one gives up waiting, and the lock stays in the table. -/
theorem waiter_leaves_an_idle_lock : ∃ (name : LockName) (l : Locks),
    History [.enter name, .grant name, .enter name, .loosen name, .leave name, .forget name,
      .leave name] l ∧ l.Idle name := by
  have held := (History.start.step (.enter 0 ⟨⟨1⟩, ⟨9⟩⟩)).step
    (@Step.grant _ [] [] ⟨0, ⟨⟨1⟩, ⟨9⟩⟩, 0, false⟩ rfl rfl)
  have waits := held.step (.enter 1 ⟨⟨1⟩, ⟨9⟩⟩)
  have loosened := waits.step
    (@Step.loosen _ [] [⟨1, ⟨⟨1⟩, ⟨9⟩⟩, 0, false⟩]
      ⟨0, ⟨⟨1⟩, ⟨9⟩⟩, 0, true⟩ rfl)
  have left := loosened.step
    (@Step.leave _ [] [⟨1, ⟨⟨1⟩, ⟨9⟩⟩, 0, false⟩]
      ⟨0, ⟨⟨1⟩, ⟨9⟩⟩, 0, false⟩ rfl)
  have cleared := left.step (.forget ⟨⟨1⟩, ⟨9⟩⟩)
  have gone := cleared.step (@Step.leave _ [] [] ⟨1, ⟨⟨1⟩, ⟨9⟩⟩, 0, false⟩ rfl)
  refine ⟨⟨⟨1⟩, ⟨9⟩⟩, _, gone,
    ((idle_locks_were_left_untidily gone).1 ⟨⟨1⟩, ⟨9⟩⟩).2 ?_⟩
  exact ⟨_, [], rfl, by decide, by simp⟩

end ControlPlane.Work.Locks

namespace ControlPlane.Concurrent
variable {τ ρ : Type} {W : Workload τ ρ} {store : Store} {sys : System τ ρ}

/-- The locks of a control plane have such a history, whatever its jobs do. -/
theorem history_of_reaches (reaches : Reaches W (System.start store) sys) :
    ∃ log, Work.Locks.History log sys.shared.locks :=
  Work.Locks.exists_history (steps_of_reaches reaches)

end ControlPlane.Concurrent

namespace ControlPlane.Simulation

def locksAfter (orders : List Order) : Work.Locks :=
  (orders.foldl (fun w order => (w.obey order).2) (World.ofConfig .test [])).locks

-- Work that is left open clears its lock, but the next attempt, which is refused for it, does not.
example : (locksAfter [.beginWork ⟨1⟩ .start none none, .closeWork 1 .abandon]).entries = [] ∧
    (locksAfter [.beginWork ⟨1⟩ .start none none, .closeWork 1 .abandon,
      .beginWork ⟨1⟩ .stop none none]).Idle ⟨⟨1⟩, ⟨1⟩⟩ := by
  decide +kernel

-- A machine that was only locked keeps its lock in the table when the guard is dropped.
example :
    (locksAfter [.lock "guard" ⟨1⟩ none, .unlock "guard"]).Idle ⟨⟨1⟩, ⟨1⟩⟩ := by
  decide +kernel

end ControlPlane.Simulation
