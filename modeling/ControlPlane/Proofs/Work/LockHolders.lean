import ControlPlane.Proofs.Concurrent.System
import ControlPlane.Proofs.Work.LockExclusion

/-!
# One holder at a time

Callers of a ledger take turns at its locks in steps so small that anything may come in between: one
finds the lock of a machine in the table or puts a new one there, is handed it, and lets go of it or
stops waiting. A lock stays in the table as long as somebody refers to it, so whoever asks for the
machine meanwhile gets the lock that the others have, and no two hold a machine.
-/

namespace ControlPlane.Work.Locks
variable {l l' : Locks} {lock : Nat}

/-- What a caller does to the lock of a machine. -/
inductive Dealing where
  | enter (name : LockName)
  | grant (name : LockName)
  | loosen (name : LockName)
  | leave (name : LockName)
  | forget (name : LockName)
deriving DecidableEq

inductive Step (l : Locks) : Dealing → Locks → Prop
  /-- A caller looks up the lock of a machine, and refers to it from then on. -/
  | enter (owner : Nat) (name : LockName) : Step l (.enter name) (l.enter owner name)
  /-- A lock that nobody holds is handed to one of those who refer to it. -/
  | grant {before after : List Claim} {c : Claim} (split : l.claims = before ++ c :: after)
    (free : l.isHeld c.lock = false) :
    Step l (.grant c.name) { l with claims := before ++ { c with granted := true } :: after }
  /-- A holder lets go of a lock that it still refers to. -/
  | loosen {before after : List Claim} {c : Claim} (split : l.claims = before ++ c :: after) :
    Step l (.loosen c.name) { l with claims := before ++ { c with granted := false } :: after }
  /-- A caller gives up waiting, or is done with a lock, or is gone. -/
  | leave {before after : List Claim} {c : Claim} (split : l.claims = before ++ c :: after) :
    Step l (.leave c.name) { l with claims := before ++ after }
  /-- A lock is taken out of the table, unless somebody refers to it. -/
  | forget (name : LockName) : Step l (.forget name) (l.forget name)

def Steps : Locks → Locks → Prop := Relation.ReflTransGen fun l l' => ∃ d, Step l d l'

theorem isHeld_eq_false :
    l.isHeld lock = false ↔ ∀ c ∈ l.claims, c.granted = true → c.lock ≠ lock := by
  simp only [isHeld, List.any_eq_false, Bool.and_eq_true, decide_eq_true_eq, not_and]
  exact forall₂_congr fun _ _ =>
    ⟨fun h granted same => h same granted, fun h same granted => h granted same⟩

/-! ### What runs takes such steps

A job lets go of a lock and clears the table in one go, and so it is with one that gives up waiting.
That is a run of small steps between which nobody else comes. Callers on several threads may come
in between, and what is shown of small steps holds of both. -/

theorem grantOldest_cases (lock : Nat) (claims : List Claim) :
    grantOldest lock claims = claims ∨ ∃ before c after, claims = before ++ c :: after ∧
      c.lock = lock ∧ grantOldest lock claims = before ++
        { c with granted := true } :: after := by
  induction claims with
  | nil => exact .inl rfl
  | cons d claims ih =>
    simp only [grantOldest]
    split
    next here => exact .inr ⟨[], d, claims, rfl, here, rfl⟩
    next there =>
      rcases ih with same | ⟨before, c, after, split, here, granted⟩
      · exact .inl (by rw [same])
      · exact .inr ⟨d :: before, c, after, by rw [split]; rfl, here, by rw [granted]; rfl⟩

theorem steps_handOver (l : Locks) (lock : Nat) : Steps l (l.handOver lock) := by
  unfold handOver
  split
  · exact .refl
  next free =>
    rcases grantOldest_cases lock l.claims with same | ⟨before, c, after, split, rfl, granted⟩
    · rw [same]
      exact .refl
    · rw [granted]
      exact .single ⟨_, .grant split (by simpa using free)⟩

theorem steps_claim (l : Locks) (owner : Nat) (name : LockName) : Steps l (l.claim owner name) :=
  .trans (.single ⟨_, .enter owner name⟩) (steps_handOver ..)

theorem steps_filter (keeps : Claim → Bool) :
    ∀ (l : Locks) (before claims : List Claim), l.claims = before ++ claims →
      Steps l { l with claims := before ++ claims.filter keeps }
  | _, before, [], all => by
    rw [List.filter_nil, ← all]
    exact .refl
  | l, before, c :: claims, all => by
    rw [List.filter_cons]
    split
    · have rest := steps_filter keeps l (before ++ [c]) claims (by simp [all])
      simpa using rest
    · have rest := steps_filter keeps { l with claims := before ++ claims } before claims rfl
      exact .head ⟨_, .leave all⟩ rest

theorem steps_dropWhere (l : Locks) (picks : Claim → Bool) : Steps l (l.dropWhere picks) :=
  dropWhere_induction (steps_filter _ l [] l.claims rfl) fun _ lock run =>
    run.trans (steps_handOver _ lock)

theorem steps_giveUp (l : Locks) (owner : Nat) (name : LockName) : Steps l (l.giveUp owner name) :=
  steps_dropWhere ..

theorem steps_release (l : Locks) (name : LockName) (how : Release) :
    Steps l (l.release name how) := by
  cases how with
  | plain => exact steps_dropWhere ..
  | tidy => exact (steps_dropWhere l _).tail ⟨_, .forget name⟩

end ControlPlane.Work.Locks

namespace ControlPlane.Concurrent
open Control
variable {τ ρ : Type} {W : Workload τ ρ} {sys sys' : System τ ρ} {s s' : Shared} {job : Nat}

theorem Shared.steps_enter (s : Shared) (job : Nat) (r : Request) :
    s.locks.Steps (s.enter job r).locks := by
  cases r with
  | lock name => exact Work.Locks.steps_claim ..
  | _ => exact .refl

theorem Shared.steps_of_answers {r : Request} {reply : r.Reply} (h : s.Answers job r reply s') :
    s.locks.Steps s'.locks := by
  cases r with
  | transact t => rw [h.2.2]; exact .refl
  | freshId => rw [h.2]; exact .refl
  | pass point => rw [h.2]; exact .refl
  | unlock name how =>
    rw [h]
    exact Work.Locks.steps_release ..
  | lock name =>
    cases reply
    · rw [h.2]
      exact Work.Locks.steps_giveUp ..
    · rw [h.2]
      exact .refl
  | _ => rw [h]; exact .refl

theorem Move.steps (move : Move W sys sys') : sys.shared.locks.Steps sys'.shared.locks := by
  cases move with
  | crash node => exact Work.Locks.steps_dropWhere ..
  | step step =>
    cases step with
    | launch => exact .refl
    | make s before after k job => exact s.steps_enter ..
    | answer s s' before after k job reply asks waits answers =>
      exact Shared.steps_of_answers answers

/-- Whatever jobs do to their locks is done in such steps. -/
theorem steps_of_reaches (reaches : Reaches W sys sys') :
    sys.shared.locks.Steps sys'.shared.locks := by
  induction reaches with
  | refl => exact .refl
  | tail _ move ih => exact ih.trans move.steps

end ControlPlane.Concurrent

namespace ControlPlane.Work.Locks
variable {l l' : Locks} {before after : List Claim} {c : Claim}

/-! ### At most one claim to a lock is granted -/

theorem Sound.rearranged (h : l.Sound) (split : l.claims = before ++ c :: after) {granted : Bool}
    (free : granted = true → l.isHeld c.lock = false) :
    Sound { l with claims := before ++ { c with granted := granted } :: after } := by
  obtain ⟨entry, one⟩ := h
  rw [split] at entry
  constructor
  · intro d mem
    rcases List.mem_append.1 mem with mem | mem
    · exact entry d (by simp [mem])
    · rcases List.mem_cons.1 mem with rfl | mem
      · exact entry c (by simp)
      · exact entry d (by simp [mem])
  · have others : ∀ d ∈ before ++ after, granted = true → d.granted = true →
      d.lock ≠ c.lock := by
      intro d mem isGranted
      refine isHeld_eq_false.1 (free isGranted) d ?_
      rw [split]
      simp only [List.mem_append, List.mem_cons] at mem ⊢
      exact mem.imp_right .inr
    rw [split, List.pairwise_append, List.pairwise_cons] at one
    obtain ⟨oneBefore, ⟨-, oneAfter⟩, across⟩ := one
    refine List.pairwise_append.2 ⟨oneBefore, List.pairwise_cons.2 ⟨?_, oneAfter⟩, ?_⟩
    · exact fun d mem mine theirs => (others d (by simp [mem]) mine theirs).symm
    · intro d mem e mem'
      rcases List.mem_cons.1 mem' with rfl | mem'
      · exact fun theirs mine => others d (by simp [mem]) mine theirs
      · exact across d mem e (by simp [mem'])

theorem Sound.step {d : Dealing} (h : l.Sound) (step : Step l d l') : l'.Sound := by
  cases step with
  | enter owner name => exact h.enter owner name
  | grant split free => exact h.rearranged split fun _ => free
  | loosen split => exact h.rearranged split (by simp)
  | @leave before after c split =>
    have sub : (before ++ after).Sublist l.claims := by
      rw [split]
      exact (List.Sublist.refl before).append (List.sublist_cons_self c after)
    exact ⟨fun d mem => h.entry d (sub.subset mem), h.one.sublist sub⟩
  | forget name => exact h.forget name

theorem Sound.steps (h : l.Sound) (run : Steps l l') : l'.Sound := by
  induction run with
  | refl => exact h
  | tail _ step ih =>
    obtain ⟨d, step⟩ := step
    exact ih.step step

/-- The claims to a machine that have been granted. -/
def holdings (l : Locks) (name : LockName) : List Claim :=
  l.claims.filter fun c => c.name = name && c.granted

theorem Sound.holdings_le (h : l.Sound) (name : LockName) : (l.holdings name).length ≤ 1 := by
  have one : (l.holdings name).Pairwise fun _ _ => False := by
    unfold holdings
    refine (h.one.filter _).imp_of_mem fun {c d} memC memD apart => ?_
    simp only [List.mem_filter, Bool.and_eq_true, decide_eq_true_eq] at memC memD
    obtain ⟨memC, namedC, grantedC⟩ := memC
    obtain ⟨memD, namedD, grantedD⟩ := memD
    exact apart grantedC grantedD (h.lock_eq memC memD (namedC.trans namedD.symm))
  match holdings l name, one with
  | [], _ => simp
  | [_], _ => simp
  | _ :: _ :: _, one => exact ((List.pairwise_cons.1 one).1 _ List.mem_cons_self).elim

/-- In whatever order callers look locks up, wait, are served, give up, let go and clear the table,
at most one of them holds a machine. -/
theorem one_holder_at_a_time (run : Steps {} l) (name : LockName) :
    (l.holdings name).length ≤ 1 :=
  (sound_empty.steps run).holdings_le name

/-- The second caller is served after the first, the third gives up, and the fourth comes when the
lock of the others is no longer in the table. -/
def succession (name : LockName) : Locks :=
  let first := (({} : Locks).claim 0 name).claim 1 name
  let second := ((first.claim 2 name).giveUp 2 name).release name .tidy
  (second.release name .tidy).claim 3 name

theorem steps_succession (name : LockName) : Steps {} (succession name) := by
  refine (steps_claim _ 0 name).trans ((steps_claim _ 1 name).trans ?_)
  refine (steps_claim _ 2 name).trans ((steps_giveUp _ 2 name).trans ?_)
  refine (steps_release _ name .tidy).trans ((steps_release _ name .tidy).trans ?_)
  exact steps_claim _ 3 name

theorem successor_is_the_only_holder :
    (succession ⟨⟨1⟩, ⟨9⟩⟩).holdings ⟨⟨1⟩, ⟨9⟩⟩ =
      [⟨3, ⟨⟨1⟩, ⟨9⟩⟩, 1, true⟩] ∧
      ((succession ⟨⟨1⟩, ⟨9⟩⟩).holdings ⟨⟨1⟩, ⟨9⟩⟩).length ≤ 1 :=
  ⟨by decide, one_holder_at_a_time (steps_succession _) _⟩

end ControlPlane.Work.Locks
